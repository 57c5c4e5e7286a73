/-
A path that comes to a dead end. If traffic leaves a pathlet by ports of which none gives an in-port, the next pathlet
is skipped, whatever it says, and the one after it starts afresh. If traffic leaves by no port at all, the next one
starts afresh itself. Then nothing is carried over but the flow entries so far, and compiling the rest only puts more
entries behind them (`foldlM_after`).

So the part before the gap and the part after it compile apart (`CompilesApart`): an error of the second part is one of
the whole, and the redundant entries of the whole can be dropped from each part first.
-/
import ControlPlane.Proofs.Flow.Maximal
import ControlPlane.Proofs.Path.Reordering

namespace ControlPlane.Compiler

variable {c : Compiler} {priority : UInt16}

/-! ## Flow entries from before -/

/-- What is compiled, behind flow entries from before. -/
def Progress.after (flows : List FlowEntry) (s : Progress) : Progress := ⟨flows ++ s.flows, s.outports⟩

theorem advance_after (c : Compiler) (priority : UInt16) (flows : List FlowEntry) (s : Progress) (p : Pathlet) :
    c.advance priority (s.after flows) p = (c.advance priority s p).map (Progress.after flows) := by
  rw [advance_eq, advance_eq]
  show (c.inheritances s.outports).mapM (c.pathletFlows priority p) >>= _ = _
  cases (c.inheritances s.outports).mapM (c.pathletFlows priority p) with
  | error e => rfl
  | ok parts => simp [Progress.after, bind, Except.bind, Except.map]

theorem foldlM_after (c : Compiler) (priority : UInt16) (flows : List FlowEntry) : ∀ (pathlets : List Pathlet)
    (s : Progress), pathlets.foldlM (c.advance priority) (s.after flows) =
      (pathlets.foldlM (c.advance priority) s).map (Progress.after flows)
  | [], s => rfl
  | p :: pathlets, s => by
    rw [List.foldlM_cons, List.foldlM_cons, advance_after]
    cases c.advance priority s p with
    | error e => rfl
    | ok s' => exact foldlM_after c priority flows pathlets s'

/-! ## The pathlet after a dead end -/

theorem inheritances_eq_nil (hg : c.graph.WellFormed) {left : List Uid} {before : List Pathlet}
    (hleft : ∀ q, q ∈ left ↔ c.Leaves before q) (hsome : ∃ q, c.Leaves before q)
    (hdead : ∀ port, ¬ c.Inherits (c.Leaves before) (some port)) : c.inheritances left = [] := by
  refine List.eq_nil_iff_forall_not_mem.2 fun inherited hi => ?_
  rw [mem_inheritances_iff hg hleft] at hi
  cases inherited with
  | none =>
    obtain ⟨q, hq⟩ := hsome
    exact hi q hq
  | some port => exact hdead port hi

theorem advance_of_inheritances_eq_nil {s : Progress} (h : c.inheritances s.outports = []) (p : Pathlet) :
    c.advance priority s p = .ok ⟨s.flows, []⟩ := by
  rw [advance_eq, h]
  simp [pure, Except.pure, bind, Except.bind]

/-! ## Parts that compile apart -/

/-- The pathlets of the whole compile to what is essential of both parts, and they fail only by an error of the second
part, which may be empty. -/
structure CompilesApart (c : Compiler) (priority : UInt16) (first second whole : List Pathlet) : Prop where
  error_iff : ∀ e, c.compile { priority, pathlets := whole } = .error e ↔
    second ≠ [] ∧ c.compile { priority, pathlets := second } = .error e
  flows : (∀ p ∈ first ++ second, p.Distinct) → ∀ flows flows', c.compile { priority, pathlets := first } = .ok flows →
    (second = [] ∧ flows' = [] ∨ c.compile { priority, pathlets := second } = .ok flows') →
    c.compile { priority, pathlets := whole } = .ok (FlowEntry.essential (flows ++ flows'))

theorem CompilesApart.of_foldlM (hg : c.graph.WellFormed) {first second whole : List Pathlet} {s : Progress}
    (hne : whole ≠ []) (hfirst : first.foldlM (c.advance priority) ⟨[], []⟩ = .ok s)
    (hwhole : whole.foldlM (c.advance priority) ⟨[], []⟩ = second.foldlM (c.advance priority) ⟨s.flows, []⟩) :
    c.CompilesApart priority first second whole := by
  have hcompile : c.compile { priority, pathlets := whole } =
      (second.foldlM (c.advance priority) ⟨[], []⟩).map fun s' => FlowEntry.essential (s.flows ++ s'.flows) := by
    have hafter : (⟨s.flows, []⟩ : Progress) = Progress.after s.flows ⟨[], []⟩ := by simp [Progress.after]
    rw [compile_eq_map hne, hwhole, hafter, foldlM_after]
    cases second.foldlM (c.advance priority) ⟨[], []⟩ <;> rfl
  constructor
  · intro e
    rw [hcompile]
    by_cases hsecond : second = []
    · subst hsecond
      exact iff_of_false (fun h => nomatch h) fun h => h.1 rfl
    · rw [and_iff_right hsecond, compile_eq_map hsecond]
      cases second.foldlM (c.advance priority) ⟨[], []⟩ <;> simp [Except.map]
  · intro hdistinct flows flows' hflows hflows'
    obtain ⟨hdistinct₁, hdistinct₂⟩ := List.forall_mem_append.1 hdistinct
    obtain ⟨-, s₁, hs₁, rfl⟩ := compile_eq_ok_iff.1 hflows
    obtain rfl : s = s₁ := Except.ok.inj (hfirst.symm.trans hs₁)
    obtain ⟨s', hs', rfl⟩ : ∃ s', second.foldlM (c.advance priority) ⟨[], []⟩ = .ok s' ∧
        FlowEntry.essential s'.flows = flows' := by
      rcases hflows' with ⟨rfl, rfl⟩ | hflows'
      · exact ⟨⟨[], []⟩, rfl, rfl⟩
      · exact (compile_eq_ok_iff.1 hflows').2
    have hleft := distinct_of_foldlM hg hdistinct₁ hfirst
    have hright := distinct_of_foldlM hg hdistinct₂ hs'
    rw [hcompile, hs', FlowEntry.essential_append hleft hright]
    rfl

/-! ## Main result -/

/-- On a topology that was built link by link, let pathlets compile. If traffic leaves them by ports, but none of these
gives an in-port, then the next pathlet does not matter, and what comes after it compiles apart from what came before.
If traffic leaves them by no port, what comes next compiles apart. -/
theorem compile_past_dead_end (c : Compiler) (hg : c.graph.Reachable) {priority : UInt16} {first : List Pathlet}
    {flows : List FlowEntry} (hfirst : c.compile { priority, pathlets := first } = .ok flows)
    (second : List Pathlet) :
    ((∃ q, c.Leaves first.reverse q) → (∀ port, ¬ c.Inherits (c.Leaves first.reverse) (some port)) →
      (∀ x y, c.compile { priority, pathlets := first ++ [x] ++ second } =
        c.compile { priority, pathlets := first ++ [y] ++ second }) ∧
      ∀ x, c.CompilesApart priority first second (first ++ [x] ++ second)) ∧
    ((∀ q, ¬ c.Leaves first.reverse q) → c.CompilesApart priority first second (first ++ second)) := by
  have hwf := hg.wellFormed
  obtain ⟨hne, s, hs, -⟩ := compile_eq_ok_iff.1 hfirst
  have hS := compiled_of_foldlM hwf hs
  constructor
  · intro hsome hdead
    have hskip := inheritances_eq_nil hwf hS.outports hsome hdead
    have hrest (x : Pathlet) : (first ++ [x] ++ second).foldlM (c.advance priority) ⟨[], []⟩ =
        second.foldlM (c.advance priority) ⟨s.flows, []⟩ := by
      rw [List.append_assoc, List.foldlM_append, hs]
      show c.advance priority s x >>= _ = _
      rw [advance_of_inheritances_eq_nil hskip]
      rfl
    have hnonempty (x : Pathlet) : first ++ [x] ++ second ≠ [] := by simp
    refine ⟨fun x y => ?_, fun x => .of_foldlM hwf (hnonempty x) hs (hrest x)⟩
    rw [compile_eq_map (hnonempty x), compile_eq_map (hnonempty y), hrest, hrest]
  · intro hnone
    have houtports : s.outports = [] :=
      List.eq_nil_iff_forall_not_mem.2 fun q hq => hnone q ((hS.outports q).1 hq)
    refine .of_foldlM hwf (List.append_ne_nil_of_left_ne_nil hne second) hs ?_
    rw [List.foldlM_append, hs, ← houtports]
    rfl

/-- All traffic is dropped. -/
def dropAll : Pathlet := ⟨.any, [], [.drop]⟩

/-- No link leaves port 9 of `c`, so a pathlet after `across` is skipped. Nothing leaves a pathlet that drops. -/
theorem compile_past_dead_end_across :
    ∃ flows, (Compiler.mk Graph.parallel {}).compile across = .ok flows ∧ flows.length = 5 ∧
    (∀ x, (Compiler.mk Graph.parallel {}).compile
      { priority := 3, pathlets := across.pathlets ++ [x] ++ across.pathlets } =
        .ok (FlowEntry.essential (flows ++ flows))) ∧
    (Compiler.mk Graph.parallel {}).compile { priority := 3, pathlets := [dropAll] ++ across.pathlets } =
      .ok (FlowEntry.essential flows) := by
  obtain ⟨flows, hflows, hlength⟩ := compile_across_parallel
  have hdrop : (Compiler.mk Graph.parallel {}).compile { priority := 3, pathlets := [dropAll] } = .ok [] := by
    decide +kernel
  have hdistinct : ∀ p ∈ [dropAll], p.Distinct := by
    intro p hp
    rw [List.mem_singleton.1 hp]
    exact ⟨by decide, by decide⟩
  have hleaves : ∀ q, (Compiler.mk Graph.parallel {}).Leaves across.pathlets.reverse q ↔ q = ⟨"c$$9"⟩ := by
    intro q
    simp only [across, List.reverse_singleton, Leaves, Pathlet.IsOutport, List.mem_singleton, exists_eq_left,
      Action.SendsOut]
    exact and_iff_left ⟨none, fun _ hq => hq⟩
  have hdead : ∀ port, ¬ (Compiler.mk Graph.parallel {}).Inherits
      ((Compiler.mk Graph.parallel {}).Leaves across.pathlets.reverse) (some port) := by
    rintro _ ⟨hport, l, hl, rfl⟩
    rw [hleaves] at hport
    rw [allLinks_parallel] at hl
    revert l
    decide
  refine ⟨flows, hflows, hlength, fun x => ?_, ?_⟩
  · obtain ⟨hpast, -⟩ := compile_past_dead_end _ Graph.reachable_parallel hflows across.pathlets
    obtain ⟨-, hapart⟩ := hpast ⟨_, (hleaves _).2 rfl⟩ hdead
    exact (hapart x).flows (List.forall_mem_append.2 ⟨distinct_across, distinct_across⟩) _ _ hflows (.inr hflows)
  · obtain ⟨-, hapart⟩ := compile_past_dead_end _ Graph.reachable_parallel hdrop across.pathlets
    refine (hapart fun q hq => ?_).flows (List.forall_mem_append.2 ⟨hdistinct, distinct_across⟩) _ _ hdrop (.inr hflows)
    obtain ⟨⟨a, ha, hq⟩, -⟩ := hq
    rw [List.mem_singleton.1 ha] at hq
    cases hq

end ControlPlane.Compiler
