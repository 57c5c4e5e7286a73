/-
Compiling the first route instead of all routes. The number of routes decides nothing but which routes get flow
entries: the out-ports, the in-ports that are inherited and the errors are the same with either, because the links of
a route are recorded, so its flow entries cannot fail (`exists_routeFlows`). What is compiled with the first route is
part of what is compiled with all of them (`alongside_foldlM`).

Redundancy is judged in the two lists apart, so an entry that stays with the first route may be dropped with all of
them. Then one stays that stands for it (`compile_first_restricts`).
-/
import ControlPlane.Proofs.Path.Reordering

namespace ControlPlane.Compiler

variable {g : Graph} {priority : UInt16} {p : Pathlet}

/-- The compiler for the first route. -/
def first (g : Graph) (config : CompilerConfig) : Compiler := ⟨g, { config with selection := .first }⟩

/-- The compiler for all routes. -/
def all (g : Graph) (config : CompilerConfig) : Compiler := ⟨g, { config with selection := .all }⟩

/-! ## What is compiled -/

/-- With the first route a part of the flow entries was compiled, and the out-ports are the same. -/
structure Progress.Part (s s' : Progress) : Prop where
  flows : s.flows ⊆ s'.flows
  outports : s.outports = s'.outports

section WellFormed

variable (hg : g.WellFormed)
include hg

theorem alongside_flowsTo (config : CompilerConfig) (priority : UInt16) (p : Pathlet) (inPort : Option Uid)
    (source outport : Uid) : Alongside (· ⊆ ·) ((first g config).flowsTo priority p inPort source outport)
      ((all g config).flowsTo priority p inPort source outport) := by
  refine Alongside.self_bind fun target _ => Alongside.self_bind fun found hfound => ?_
  cases found with
  | none => exact .error _
  | some r =>
    dsimp only
    split
    · exact .ok (List.Subset.refl _)
    · have hroutes : ∀ route ∈ r.paths, ∃ part, (all g config).routeFlows priority p target inPort route = .ok part :=
        fun route hroute => exists_routeFlows (origin_of_mem_paths hg (mapError_eq_ok hfound) hroute)
      obtain ⟨parts', hparts'⟩ := exists_mapM_eq_ok.2 hroutes
      obtain ⟨parts, hparts⟩ := exists_mapM_eq_ok.2 fun route hroute => hroutes route (List.take_subset 1 _ hroute)
      have hfirst : (first g config).routeFlows priority p target inPort =
          (all g config).routeFlows priority p target inPort :=
        funext (routeFlows_congr (first g config) (all g config) rfl rfl inPort)
      have htaken : (first g config).config.selection.select r.paths = r.paths.take 1 := rfl
      have hall : (all g config).config.selection.select r.paths = r.paths := rfl
      rw [hfirst, htaken, hall, hparts, hparts']
      refine .ok fun f hf => (mem_flatten_results hparts').2 ?_
      obtain ⟨route, hroute, part, hpart, hf⟩ := (mem_flatten_results hparts).1 hf
      exact ⟨route, List.take_subset 1 _ hroute, part, hpart, hf⟩

theorem alongside_pathletFlows (config : CompilerConfig) (priority : UInt16) (p : Pathlet) (inherited : Option Uid) :
    Alongside (fun part part' => part.1 ⊆ part'.1 ∧ part.2 = part'.2)
      ((first g config).pathletFlows priority p inherited) ((all g config).pathletFlows priority p inherited) := by
  refine Alongside.self_bind fun qs _ => Alongside.self_bind fun inPort _ => Alongside.self_bind fun sources _ => ?_
  have hlegs (source : Uid) := Alongside.mapM (alongside_flowsTo hg config priority p inPort source) qs
  refine (Alongside.mapM hlegs sources).bind fun rows rows' hrows => .ok ⟨?_, rfl⟩
  rw [List.flatten_flatten, List.flatten_flatten, ← List.flatMap_def, ← List.flatMap_def]
  exact flatMap_subset_of_forall₂ hrows fun row row' hrow => flatten_subset_of_forall₂ hrow

/-- After a pathlet, a part was compiled again, and the out-ports are the same. -/
theorem alongside_advance (config : CompilerConfig) (priority : UInt16) {s s' : Progress} (hs : s.Part s')
    (p : Pathlet) : Alongside Progress.Part ((first g config).advance priority s p)
      ((all g config).advance priority s' p) := by
  rw [advance_eq, advance_eq, hs.outports]
  have hparts := Alongside.mapM (alongside_pathletFlows hg config priority p) ((all g config).inheritances s'.outports)
  refine Alongside.bind hparts fun parts parts' hparts => .ok ⟨?_, ?_⟩
  · have hflows : parts.flatMap (·.1) ⊆ parts'.flatMap (·.1) :=
      flatMap_subset_of_forall₂ hparts fun _ _ hpart => hpart.1
    exact List.append_subset.2 ⟨List.subset_append_of_subset_left _ hs.flows,
      List.subset_append_of_subset_right _ hflows⟩
  · exact flatMap_eq_of_forall₂ hparts fun _ _ hpart => hpart.2

theorem alongside_foldlM (config : CompilerConfig) (priority : UInt16) (pathlets : List Pathlet) :
    Alongside Progress.Part (pathlets.foldlM ((first g config).advance priority) ⟨[], []⟩)
      (pathlets.foldlM ((all g config).advance priority) ⟨[], []⟩) :=
  Alongside.foldlM (fun _ _ p hs => alongside_advance hg config priority hs p) pathlets ⟨List.Subset.refl _, rfl⟩

end WellFormed

/-! ## Main result -/

theorem alongside_compile (hg : g.WellFormed) (config : CompilerConfig) (path : Path) :
    Alongside (fun flows flows' => ∃ s s' : Progress, s.Part s' ∧ flows = FlowEntry.essential s.flows ∧
      flows' = FlowEntry.essential s'.flows) ((first g config).compile path) ((all g config).compile path) := by
  unfold compile
  split
  · exact .error _
  · refine (alongside_foldlM hg config path.priority path.pathlets).bind fun s s' hs => .ok ⟨s, s', hs, rfl, rfl⟩

/-- On a topology that was built link by link, a path fails to compile with the first route exactly if it fails with
all routes, and with the same error. If it compiles, every flow entry with the first route has one with all routes
that stands for it: on its node, with its priority, with the same actions or equal ones, and accepting every packet
that it accepts. -/
theorem compile_first_restricts (hg : g.Reachable) (config : CompilerConfig) (path : Path) :
    (∀ e, (Compiler.mk g { config with selection := .first }).compile path = .error e ↔
      (Compiler.mk g { config with selection := .all }).compile path = .error e) ∧
    ∀ flows flows', (Compiler.mk g { config with selection := .first }).compile path = .ok flows →
      (Compiler.mk g { config with selection := .all }).compile path = .ok flows' →
      ∀ f ∈ flows, ∃ f' ∈ flows', f'.node = f.node ∧ f'.priority = f.priority ∧
        (f'.actions = f.actions ∨ Action.listEquals f'.actions f.actions = true) ∧
        ∀ pkt : Packet, f.pattern.accepts pkt → f'.pattern.accepts pkt := by
  have halong := alongside_compile hg.wellFormed config path
  refine ⟨halong.error_iff, fun flows flows' hflows hflows' f hf => ?_⟩
  obtain ⟨s, s', hpart, rfl, rfl⟩ := halong.of_ok hflows hflows'
  have hmem : f ∈ s'.flows := hpart.flows ((FlowEntry.essential_sublist s.flows).subset hf)
  -- with all routes, the entry may have been dropped for one that stands for it
  rcases FlowEntry.exists_essential_covering hmem with hstays | ⟨f', hf', htarget, hcovers⟩
  · exact ⟨f, hstays, rfl, rfl, .inl rfl, fun _ h => h⟩
  · obtain ⟨hnode, hpriority, hactions⟩ := FlowEntry.sameTarget_iff.1 htarget
    exact ⟨f', hf', hnode, hpriority, .inr hactions, fun _ => hcovers.accepts⟩

/-- One of the two routes from `a` to `c`, and both of them. -/
theorem compile_first_restricts_across : ∃ flows, (Compiler.mk Graph.parallel {}).compile across = .ok flows ∧
    flows.length = 5 ∧ acrossFlows.length = 3 ∧ ∀ f ∈ acrossFlows, ∃ f' ∈ flows, f'.node = f.node ∧
      ∀ pkt : Packet, f.pattern.accepts pkt → f'.pattern.accepts pkt := by
  obtain ⟨flows, hflows, hlength⟩ := compile_across_parallel
  refine ⟨flows, hflows, hlength, rfl, fun f hf => ?_⟩
  obtain ⟨-, hstands⟩ := compile_first_restricts Graph.reachable_parallel {} across
  obtain ⟨f', hf', hnode, -, -, haccepts⟩ := hstands acrossFlows flows compile_across hflows f hf
  exact ⟨f', hf', hnode, haccepts⟩

end ControlPlane.Compiler
