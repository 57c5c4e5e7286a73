/-
The relations between masked addresses and between fields. Subsumption is a preorder whose two-sided
part is equality; related fields have the same kind; and a field accepts every packet that a field it
subsumes accepts.
-/
import ControlPlane.Packet

namespace ControlPlane

/-! ## Masked addresses -/

namespace Masked

variable {w : Nat} {a b c : Masked w}

theorem equals_iff : a.equals b = true ↔ a.mask = b.mask ∧ a.addr &&& a.mask = b.addr &&& a.mask := by
  simp [equals]

theorem subsumes_iff : a.subsumes b = true ↔
    b.mask &&& a.mask = a.mask ∧ a.addr &&& a.mask = b.addr &&& a.mask := by
  simp [subsumes]

theorem equals_refl (a : Masked w) : a.equals a = true := equals_iff.2 ⟨rfl, rfl⟩

theorem equals_symm (h : a.equals b = true) : b.equals a = true := by
  obtain ⟨hm, ha⟩ := equals_iff.1 h
  exact equals_iff.2 ⟨hm.symm, hm ▸ ha.symm⟩

theorem equals_trans (h : a.equals b = true) (h' : b.equals c = true) : a.equals c = true := by
  obtain ⟨hm, ha⟩ := equals_iff.1 h
  obtain ⟨hm', ha'⟩ := equals_iff.1 h'
  refine equals_iff.2 ⟨hm.trans hm', ha.trans ?_⟩
  rw [hm]
  exact ha'

theorem subsumes_of_equals (h : a.equals b = true) : a.subsumes b = true := by
  obtain ⟨hm, ha⟩ := equals_iff.1 h
  exact subsumes_iff.2 ⟨by rw [hm, BitVec.and_self], ha⟩

/-- Agreement under a mask is agreement under every part of the mask. -/
theorem and_eq_of_and_eq {x y m m' : BitVec w} (h : x &&& m' = y &&& m') (hm : m' &&& m = m) :
    x &&& m = y &&& m := by
  rw [← hm, ← BitVec.and_assoc, ← BitVec.and_assoc, h]

theorem subsumes_trans (h : a.subsumes b = true) (h' : b.subsumes c = true) : a.subsumes c = true := by
  obtain ⟨hm, ha⟩ := subsumes_iff.1 h
  obtain ⟨hm', ha'⟩ := subsumes_iff.1 h'
  refine subsumes_iff.2 ⟨?_, ha.trans (and_eq_of_and_eq ha' hm)⟩
  rw [← hm, ← BitVec.and_assoc, hm']

theorem equals_of_subsumes (h : a.subsumes b = true) (h' : b.subsumes a = true) : a.equals b = true := by
  obtain ⟨hm, ha⟩ := subsumes_iff.1 h
  obtain ⟨hm', -⟩ := subsumes_iff.1 h'
  exact equals_iff.2 ⟨by rw [← hm, BitVec.and_comm, hm'], ha⟩

theorem accepts_of_subsumes (h : a.subsumes b = true) {x : BitVec w} (hx : b.accepts x = true) :
    a.accepts x = true := by
  obtain ⟨hm, ha⟩ := subsumes_iff.1 h
  simp only [accepts, beq_iff_eq] at *
  exact ha.trans (and_eq_of_and_eq hx hm)

end Masked

/-! ## Fields -/

namespace Field

variable {f g h : Field}

theorem sameKind_iff : f.sameKind g = true ↔ f.kind = g.kind := by
  simp [sameKind]

theorem kind_of_equals (he : f.equals g = true) : f.kind = g.kind := by
  cases f <;> cases g <;> first | rfl | cases he

theorem kind_of_subsumes (hs : f.subsumes g = true) : f.kind = g.kind := by
  cases f <;> cases g <;> first | rfl | cases hs

theorem equals_refl (f : Field) : f.equals f = true := by
  cases f <;> simp [equals, Masked.equals_refl]

-- Related fields have the same kind, so of all pairs of constructors the equal ones remain: those that
-- compare addresses under a mask, and those that compare values.

theorem equals_symm (he : f.equals g = true) : g.equals f = true := by
  have hk := kind_of_equals he
  cases f <;> cases g <;> cases hk
  all_goals first
    | exact Masked.equals_symm he
    | (simp only [equals, beq_iff_eq] at he ⊢; exact he.symm)

theorem equals_trans (he : f.equals g = true) (he' : g.equals h = true) : f.equals h = true := by
  have hk := kind_of_equals he
  have hk' := kind_of_equals he'
  cases f <;> cases g <;> cases hk <;> cases h <;> cases hk'
  all_goals first
    | exact Masked.equals_trans he he'
    | (simp only [equals, beq_iff_eq] at he he' ⊢; exact he.trans he')

theorem subsumes_of_equals (he : f.equals g = true) : f.subsumes g = true := by
  have hk := kind_of_equals he
  cases f <;> cases g <;> cases hk
  all_goals first
    | exact Masked.subsumes_of_equals he
    | exact he

theorem subsumes_refl (f : Field) : f.subsumes f = true := subsumes_of_equals (equals_refl f)

theorem subsumes_trans (hs : f.subsumes g = true) (hs' : g.subsumes h = true) : f.subsumes h = true := by
  have hk := kind_of_subsumes hs
  have hk' := kind_of_subsumes hs'
  cases f <;> cases g <;> cases hk <;> cases h <;> cases hk'
  all_goals first
    | exact Masked.subsumes_trans hs hs'
    | (simp only [subsumes, equals, beq_iff_eq] at hs hs' ⊢; exact hs.trans hs')

theorem equals_of_subsumes (hs : f.subsumes g = true) (hs' : g.subsumes f = true) : f.equals g = true := by
  have hk := kind_of_subsumes hs
  cases f <;> cases g <;> cases hk
  all_goals first
    | exact Masked.equals_of_subsumes hs hs'
    | exact hs

/-- A field accepts what the fields it subsumes accept. -/
theorem accepts_of_subsumes (hs : f.subsumes g = true) {p : Packet} (hp : g.accepts p) : f.accepts p := by
  have hk := kind_of_subsumes hs
  cases f <;> cases g <;> cases hk
  all_goals first
    | (obtain ⟨addr, ha, hm⟩ := hp; exact ⟨addr, ha, Masked.accepts_of_subsumes hs hm⟩)
    | (simp only [subsumes, equals, beq_iff_eq] at hs; exact hs ▸ hp)

end Field

end ControlPlane
