/-
The ports of the pathlets of a path, said without the loops of the compiler: which ports a pathlet sends
traffic out of, what its match is with another in-port, which in-ports it may inherit from the pathlets
before it, and which pathlets are skipped. The compiler's lists have these ports as their members
(`mem_outports`, `mem_inheritedInPorts`), the latter on topologies that were built link by link.

The pathlets before another one are listed from the latest to the first, because what a pathlet inherits
depends on the one right before it.
-/
import ControlPlane.Packet
import ControlPlane.Path.Compile
import ControlPlane.Proofs.Topology.Records

namespace ControlPlane

/-! ## Out-ports -/

/-- The action sends packets out of the port. -/
def Action.SendsOut (g : Graph) : Action → Uid → Prop
  | .forward ports, q => q ∈ ports
  | .flood inPort, q => q ≠ inPort ∧ ∃ node, inPort.nodeOfPort = .ok node ∧ ∃ l ∈ g.links node, l.origin = q
  | _, _ => False

theorem Action.SendsOut.isForwarding {g : Graph} {a : Action} {q : Uid} (h : a.SendsOut g q) :
    a.isForwarding = true := by
  cases a with
  | forward ports => rfl
  | flood inPort => rfl
  | _ => cases h

/-- An action of the pathlet sends packets out of the port. -/
def Pathlet.IsOutport (g : Graph) (p : Pathlet) (q : Uid) : Prop := ∃ a ∈ p.actions, a.SendsOut g q

theorem Uid.portNode_eq_ok {port node : Uid} : port.portNode = .ok node ↔ port.nodeOfPort = .ok node := by
  constructor
  · exact mapError_eq_ok
  · intro h; rw [Uid.portNode, h]; rfl

theorem Action.mem_outports {g : Graph} {a : Action} {qs : List Uid} (h : a.outports g = .ok qs) {q : Uid} :
    q ∈ qs ↔ a.SendsOut g q := by
  cases a with
  | forward ports => cases h; rfl
  | flood inPort =>
    obtain ⟨node, hnode, h⟩ := bind_eq_ok h
    cases h
    rw [Uid.portNode_eq_ok] at hnode
    rw [List.mem_filter, List.mem_map, bne_iff_ne, and_comm]
    refine and_congr_right fun _ => ⟨fun hl => ⟨node, hnode, hl⟩, ?_⟩
    rintro ⟨node', hnode', hl⟩
    rw [hnode] at hnode'
    cases hnode'
    exact hl
  | _ => cases h; simp [SendsOut]

theorem Pathlet.mem_outports {g : Graph} {p : Pathlet} {qs : List Uid} (h : p.outports g = .ok qs) {q : Uid} :
    q ∈ qs ↔ p.IsOutport g q := by
  obtain ⟨qss, hqss, h⟩ := bind_eq_ok h
  cases h
  rw [List.mem_eraseDups, mem_flatten_results hqss]
  constructor
  · rintro ⟨a, ha, qs, hqs, hq⟩; exact ⟨a, ha, (Action.mem_outports hqs).1 hq⟩
  · rintro ⟨a, ha, hq⟩
    obtain ⟨qs, -, hqs⟩ := exists_result hqss ha
    exact ⟨a, ha, qs, hqs, (Action.mem_outports hqs).2 hq⟩

/-! ## The match of a pathlet with another in-port -/

theorem Match.kind_of_mem_withoutInPort {m : Match} {f : Field} (h : f ∈ m.withoutInPort.fields) :
    f.kind ≠ .inPort := by
  simpa using (List.mem_filter.1 h).2

namespace Pathlet

variable {p : Pathlet} {inPort : Option Uid}

theorem fields_patternAt : (p.patternAt inPort).fields =
    p.pattern.withoutInPort.fields ++ inPort.toList.map .inPort := by
  cases inPort with
  | none => simp [patternAt]
  | some port => rfl

theorem withoutInPort_patternAt : (p.patternAt inPort).withoutInPort = p.pattern.withoutInPort := by
  have hnil : (inPort.toList.map Field.inPort).filter (fun f => f.kind != .inPort) = [] := by
    cases inPort <;> rfl
  rw [Match.withoutInPort, fields_patternAt, List.filter_append, hnil, List.append_nil]
  simp [Match.withoutInPort]

theorem filter_inPort_patternAt : (p.patternAt inPort).fields.filter (fun f => f.kind == .inPort) =
    inPort.toList.map .inPort := by
  have hnil : p.pattern.withoutInPort.fields.filter (fun f => f.kind == .inPort) = [] := by
    refine List.filter_eq_nil_iff.2 fun f hf => ?_
    rw [beq_iff_eq]
    exact Match.kind_of_mem_withoutInPort hf
  have hport : (inPort.toList.map Field.inPort).filter (fun f => f.kind == .inPort) =
      inPort.toList.map Field.inPort := by
    cases inPort <;> rfl
  rw [fields_patternAt, List.filter_append, hnil, hport, List.nil_append]

theorem accepts_patternAt {port : Uid} {pkt : Packet} : (p.patternAt (some port)).accepts pkt ↔
    p.pattern.withoutInPort.accepts pkt ∧ pkt.value? .inPort = some port := by
  unfold Match.accepts
  rw [fields_patternAt, List.forall_mem_append]
  show _ ∧ (∀ f ∈ [Field.inPort port], f.accepts pkt) ↔ _
  rw [List.forall_mem_singleton]
  rfl

theorem distinct_patternAt (h : p.pattern.withoutInPort.Distinct) (port : Uid) :
    (p.patternAt (some port)).Distinct := by
  rw [Match.Distinct, fields_patternAt]
  refine List.pairwise_append.2 ⟨h, List.pairwise_singleton _ _, fun f hf g hg => ?_⟩
  rw [List.mem_singleton.1 hg]
  exact Match.kind_of_mem_withoutInPort hf

/-- The in-port of the match comes first, and what is inherited counts without one. -/
theorem eq_of_effectiveInPort {inherited : Option Uid} (h : p.effectiveInPort inherited = .ok inPort) :
    inPort = p.pattern.inPort?.or inherited := by
  unfold effectiveInPort at h
  split at h
  · next explicit port hexplicit =>
    split at h
    · cases h; rw [hexplicit]; rfl
    · cases h
  · next explicit hexplicit => cases h; rw [hexplicit]; rfl
  · next hexplicit => cases h; rw [hexplicit]; rfl

end Pathlet

/-! ## In-ports -/

namespace Compiler

/-- What a pathlet may inherit when traffic has left by some ports: nothing if there are none, and
otherwise an in-port that the configuration derives from them. -/
def Inherits (c : Compiler) (left : Uid → Prop) : Option Uid → Prop
  | none => ∀ q, ¬ left q
  | some port =>
    match c.config.addressing with
    | .samePort => left port ∧ ∃ l ∈ c.graph.allLinks, l.origin = port
    | .peer => ∃ l ∈ c.graph.allLinks, left l.origin ∧ port ∈ l.targets

/-- Traffic leaves the first of the pathlets, the latest one, by the port. None leaves a pathlet that is
skipped because it can inherit nothing. -/
def Leaves (c : Compiler) : List Pathlet → Uid → Prop
  | [], _ => False
  | p :: before, q => p.IsOutport c.graph q ∧ ∃ inherited, c.Inherits (c.Leaves before) inherited

/-- A pathlet after these pathlets is not skipped. -/
def Compiles (c : Compiler) (before : List Pathlet) : Prop := ∃ inherited, c.Inherits (c.Leaves before) inherited

/-- The port is where traffic enters a pathlet after these pathlets: the in-port of its match, or else an
inherited one. -/
def EffectiveInPort (c : Compiler) (before : List Pathlet) (p : Pathlet) (port : Uid) : Prop :=
  p.pattern.inPort? = some port ∨ (p.pattern.inPort? = none ∧ c.Inherits (c.Leaves before) (some port))

theorem mem_inheritedInPorts {c : Compiler} (hg : c.graph.WellFormed) {left : List Uid} {port : Uid} :
    port ∈ c.graph.inheritedInPorts c.config.addressing left ↔ c.Inherits (· ∈ left) (some port) := by
  unfold Graph.inheritedInPorts Inherits
  cases c.config.addressing with
  | samePort => rw [List.mem_eraseDups, List.mem_filter, hg.hasLinkFrom_iff]
  | peer =>
    simp only [List.mem_eraseDups, List.mem_flatMap]
    constructor
    · rintro ⟨q, hq, h⟩
      split at h
      · obtain ⟨l, hl, ht⟩ := List.mem_flatMap.1 h
        obtain ⟨hl, ho⟩ := List.mem_filter.1 hl
        exact ⟨l, (hg.mem_links.1 hl).1, by rw [beq_iff_eq.1 ho]; exact hq, ht⟩
      · cases h
    · -- a recorded link is found at the node of the port it leaves
      rintro ⟨l, hl, hq, ht⟩
      obtain ⟨u, v, huv⟩ := Graph.mem_allLinks.1 hl
      have ho := (hg.recorded u v l huv).origin
      refine ⟨l.origin, hq, ?_⟩
      rw [ho]
      exact List.mem_flatMap.2 ⟨l, List.mem_filter.2 ⟨hg.mem_links.2 ⟨hl, ho⟩, beq_self_eq_true _⟩, ht⟩

/-- What a pathlet may inherit when traffic has left by the ports, in the order in which it is tried. -/
def inheritances (c : Compiler) (left : List Uid) : List (Option Uid) :=
  if left.isEmpty then [none] else (c.graph.inheritedInPorts c.config.addressing left).map some

/-- Ports are inherited from ports only. -/
theorem Inherits.exists_left {c : Compiler} {left : Uid → Prop} {port : Uid} (h : c.Inherits left (some port)) :
    ∃ q, left q := by
  unfold Inherits at h
  dsimp only at h
  split at h
  · exact ⟨port, h.1⟩
  · obtain ⟨l, -, hl, -⟩ := h
    exact ⟨l.origin, hl⟩

theorem mem_inheritances {c : Compiler} (hg : c.graph.WellFormed) {left : List Uid} {inherited : Option Uid} :
    inherited ∈ c.inheritances left ↔ c.Inherits (· ∈ left) inherited := by
  unfold inheritances
  split
  · next hnil =>
    obtain rfl := List.isEmpty_iff.1 hnil
    rw [List.mem_singleton]
    constructor
    · rintro rfl q
      exact List.not_mem_nil
    · intro hi
      cases inherited with
      | none => rfl
      | some port =>
        obtain ⟨q, hq⟩ := hi.exists_left
        cases hq
  · next hne =>
    cases inherited with
    | none =>
      -- it cannot start afresh while there are out-ports
      obtain ⟨q, hq⟩ := List.exists_mem_of_ne_nil left (by simpa using hne)
      simp only [List.mem_map, reduceCtorEq, and_false, exists_false, false_iff]
      exact fun hno => hno q hq
    | some port => rw [← mem_inheritedInPorts hg]; simp

theorem mem_inheritances_iff {c : Compiler} (hg : c.graph.WellFormed) {left : List Uid} {before : List Pathlet}
    (hleft : ∀ q, q ∈ left ↔ c.Leaves before q) {inherited : Option Uid} :
    inherited ∈ c.inheritances left ↔ c.Inherits (c.Leaves before) inherited := by
  have hsame : (· ∈ left) = c.Leaves before := funext fun q => propext (hleft q)
  rw [mem_inheritances hg, hsame]

end Compiler

end ControlPlane
