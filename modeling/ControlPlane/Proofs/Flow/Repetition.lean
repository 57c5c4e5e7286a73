/-
Equality of an entry with itself. Matches are compared by counting equal fields, so a match equals itself
exactly if no two of its fields are equal (`Match.equals_self_iff`). Writing fields compares them as a match
does; the other actions equal themselves. So a flow entry equals itself exactly if neither its match nor
what it writes has a field twice (`FlowEntry.equals_self_iff`).

Compiling gives an entry the fields of a pathlet's match with at most one in-port, and no actions that write
but those of the pathlet. So the entries of a path equal themselves if no pathlet has a field twice, in-ports
apart (`Compiler.unrepeated_of_compile`).
-/
import ControlPlane.Proofs.Path.Descent

namespace ControlPlane

/-! ## Matches -/

namespace Match

variable {m : Match}

/-- No field of the match is equal to a later one. -/
def Unrepeated (m : Match) : Prop := m.fields.Pairwise fun f g => f.equals g = false

instance (m : Match) : Decidable m.Unrepeated := inferInstanceAs (Decidable (List.Pairwise _ _))

/-- Each field of a list has one equal field in the list exactly if none of them is equal to a later one. -/
theorem countP_equals_iff : ∀ {fields : List Field}, (∀ f ∈ fields, fields.countP f.equals = 1) ↔
    fields.Pairwise fun f g => f.equals g = false
  | [] => by simp
  | x :: fields => by
    have hsymm : ∀ f, f.equals x = x.equals f := fun f =>
      Bool.eq_iff_iff.2 ⟨Field.equals_symm, Field.equals_symm⟩
    rw [List.pairwise_cons, ← countP_equals_iff, List.forall_mem_cons, List.countP_cons, if_pos (Field.equals_refl x)]
    -- the first field counts itself, so no later field may be equal to it
    have hx : fields.countP x.equals + 1 = 1 ↔ ∀ f ∈ fields, x.equals f = false := by
      rw [Nat.add_eq_right, List.countP_eq_zero]
      simp only [Bool.not_eq_true]
    rw [hx]
    refine and_congr_right fun hnone => forall₂_congr fun f hf => ?_
    rw [List.countP_cons, hsymm, hnone f hf, if_neg Bool.false_ne_true, Nat.add_zero]

theorem equals_self_iff : m.equals m = true ↔ m.Unrepeated := by
  have hsame : ∀ f : Field, (fun g : Field => g.sameKind f && f.equals g) = f.equals := fun f => funext fun g =>
    Bool.and_eq_right_iff_imp.2 fun he => Field.sameKind_iff.2 (Field.kind_of_equals he).symm
  rw [equals_iff, and_iff_right rfl, Unrepeated, ← countP_equals_iff]
  simp only [hsame, List.countP_eq_length_filter]

end Match

/-! ## Actions -/

namespace Action

/-- The action writes no field twice. -/
def Unrepeated : Action → Prop
  | .writeFields fields => Match.Unrepeated ⟨fields⟩
  | _ => True

instance : (a : Action) → Decidable a.Unrepeated
  | .writeFields fields => inferInstanceAs (Decidable (Match.Unrepeated ⟨fields⟩))
  | .forward _ | .flood _ | .drop | .sendToController | .pushVlan _ | .popVlan => .isTrue trivial

theorem equals_self_iff {a : Action} : a.equals a = true ↔ a.Unrepeated := by
  cases a with
  | forward ports => exact iff_of_true (forward_equals_iff.2 ⟨fun _ => id, fun _ => id⟩) trivial
  | flood inPort => exact iff_of_true (beq_self_eq_true inPort) trivial
  | pushVlan id => exact iff_of_true (beq_self_eq_true id) trivial
  | drop | sendToController | popVlan => exact iff_of_true rfl trivial
  | writeFields fields => exact Match.equals_self_iff

theorem listEquals_self_iff {actions : List Action} :
    listEquals actions actions = true ↔ ∀ a ∈ actions, a.Unrepeated := by
  rw [listEquals_iff, List.forall₂_same]
  exact forall₂_congr fun _ _ => equals_self_iff

end Action

/-! ## Flow entries -/

namespace FlowEntry

/-- Neither the match nor what the actions write has a field twice. -/
def Unrepeated (f : FlowEntry) : Prop := f.pattern.Unrepeated ∧ ∀ a ∈ f.actions, a.Unrepeated

instance (f : FlowEntry) : Decidable f.Unrepeated :=
  inferInstanceAs (Decidable (f.pattern.Unrepeated ∧ ∀ a ∈ f.actions, a.Unrepeated))

theorem equals_self_iff {f : FlowEntry} : f.equals f = true ↔ f.Unrepeated := by
  rw [equals_iff, sameTarget_iff, and_iff_right rfl, and_iff_right rfl, Action.listEquals_self_iff,
    Match.equals_self_iff, and_comm]
  rfl

end FlowEntry

/-! ## Paths -/

/-- Neither the match, in-ports apart, nor what the actions write has a field twice. -/
def Pathlet.Unrepeated (p : Pathlet) : Prop := p.pattern.withoutInPort.Unrepeated ∧ ∀ a ∈ p.actions, a.Unrepeated

instance (p : Pathlet) : Decidable p.Unrepeated :=
  inferInstanceAs (Decidable (p.pattern.withoutInPort.Unrepeated ∧ ∀ a ∈ p.actions, a.Unrepeated))

/-- One in-port repeats nothing: what holds of fields of different kinds, and of the other fields, holds of all. -/
theorem Match.pairwise_of_withoutInPort {m : Match} {R : Field → Field → Prop} (hR : ∀ {f g}, f.kind ≠ g.kind → R f g)
    (hinPorts : (m.fields.filter fun x => x.kind == .inPort).length ≤ 1) (hothers : m.withoutInPort.fields.Pairwise R) :
    m.fields.Pairwise R := by
  refine List.pairwise_iff_forall_sublist.2 fun {f g} hfg => ?_
  by_cases hkind : f.kind = g.kind
  · by_cases hin : f.kind = .inPort
    · have hboth : [f, g].filter (fun x => x.kind == .inPort) = [f, g] := by simp [← hkind, hin]
      have hle := (hfg.filter fun x => x.kind == .inPort).length_le.trans hinPorts
      rw [hboth] at hle
      exact absurd hle (by simp)
    · have hboth : [f, g].filter (fun x => x.kind != .inPort) = [f, g] := by simp [← hkind, hin]
      exact List.pairwise_iff_forall_sublist.1 hothers (hboth ▸ hfg.filter _)
  · exact hR hkind

theorem Field.not_equals_of_kind {f g : Field} (h : f.kind ≠ g.kind) : f.equals g = false := by
  cases he : f.equals g with
  | false => rfl
  | true => exact absurd (kind_of_equals he) h

/-- An entry does what its pathlet says, and forwards. -/
theorem Justified.mem_actions {g : Graph} {p : Pathlet} {f : FlowEntry} (h : Justified g p f) {a : Action}
    (ha : a ∈ f.actions) : a ∈ p.actions ∨ ∃ ports, a = .forward ports := by
  rcases h.role with ⟨_, _, _, hactions⟩ | ⟨_, _, _, _, _, hactions, _⟩
  · exact .inl (hactions ▸ ha)
  · rw [hactions] at ha
    rcases List.mem_append.1 ha with ha | ha
    · exact .inl (List.mem_filter.1 ha).1
    · exact .inr ⟨_, List.mem_singleton.1 ha⟩

theorem Justified.unrepeated {g : Graph} {p : Pathlet} {f : FlowEntry} (h : Justified g p f) (hp : p.Unrepeated) :
    f.Unrepeated := by
  refine ⟨Match.pairwise_of_withoutInPort Field.not_equals_of_kind h.inPorts ?_, fun a ha => ?_⟩
  · rw [h.others]
    exact hp.1
  · rcases h.mem_actions ha with ha | ⟨ports, rfl⟩
    · exact hp.2 a ha
    · trivial

/-- The entries of a path have no field twice if its pathlets have none. -/
theorem Compiler.unrepeated_of_compile {c : Compiler} (hg : c.graph.WellFormed) {path : Path} {flows : List FlowEntry}
    (h : c.compile path = .ok flows) (hpath : ∀ p ∈ path.pathlets, p.Unrepeated) : ∀ f ∈ flows, f.Unrepeated := by
  intro f hf
  obtain ⟨-, p, hp, hjustified⟩ := justified_of_compile hg h f hf
  exact hjustified.unrepeated (hpath p hp)

end ControlPlane
