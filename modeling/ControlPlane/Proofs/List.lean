/-
Laws of lists: what the members of a list without repetition say about it, which positions hold a member, where a list
is cut, and lists that correspond. Two lists have the same members (`SameMembers`), or every member of each is related
to one of the other (`Matching`); representatives of the same classes can then be paired (`exists_perm_forall₂`).
-/
import Mathlib.Data.List.FinRange
import Mathlib.Data.List.Forall2
import Mathlib.Data.List.Pairwise
import Mathlib.Data.List.TakeWhile
import Mathlib.Tactic.ByContra
import Mathlib.Tactic.Choose

namespace ControlPlane

variable {α β : Type}

/-! ## Members and positions -/

/-- A list without repetitions whose only member is known. -/
theorem eq_singleton_of_nodup {xs : List α} (h : xs.Nodup) {a : α} (hmem : ∀ x, x ∈ xs ↔ x = a) : xs = [a] := by
  have hperm := (List.perm_ext_iff_of_nodup h (List.nodup_singleton a)).2 fun x => by
    rw [hmem, List.mem_singleton]
  exact List.perm_singleton.1 hperm

/-- One member of a list has the property exactly if one position has. -/
theorem length_filter_eq_one_iff {xs : List α} {p : α → Bool} :
    (xs.filter p).length = 1 ↔ ∃! i : Fin xs.length, p xs[i] = true := by
  have hpositions : (xs.filter p).length = ((List.finRange xs.length).filter fun i => p xs[i]).length := by
    conv_lhs => rw [← List.map_get_finRange xs, List.filter_map, List.length_map]
    rfl
  have hnodup : ((List.finRange xs.length).filter fun i => p xs[i]).Nodup := (List.nodup_finRange _).filter _
  have hmem : ∀ i, i ∈ (List.finRange xs.length).filter (fun i => p xs[i]) ↔ p xs[i] = true := by simp
  rw [hpositions, List.length_eq_one_iff]
  constructor
  · rintro ⟨i, hi⟩
    rw [hi] at hmem
    exact ⟨i, (hmem i).1 List.mem_cons_self, fun j hj => List.mem_singleton.1 ((hmem j).2 hj)⟩
  · rintro ⟨i, hi, hunique⟩
    refine ⟨i, eq_singleton_of_nodup hnodup fun j => ?_⟩
    rw [hmem]
    exact ⟨hunique j, fun hj => hj ▸ hi⟩

/-- If one member of a list without repetition stands for a list and the others for none, all of them together
stand for this list. -/
theorem flatMap_ite [DecidableEq α] {as : List α} (h : as.Nodup) (a : α) (bs : List β) :
    as.flatMap (fun a' => if a' = a then bs else []) = if a ∈ as then bs else [] := by
  induction as with
  | nil => simp
  | cons a' as ih =>
    obtain ⟨hnot, hnodup⟩ := List.nodup_cons.1 h
    rw [List.flatMap_cons, ih hnodup]
    by_cases ha : a' = a
    · subst ha
      simp [hnot]
    · simp [ha, Ne.symm ha]

theorem getElem?_concat_eq_some {xs : List α} {a b : α} {i : Nat} :
    (xs ++ [a])[i]? = some b ↔ xs[i]? = some b ∨ i = xs.length ∧ a = b := by
  rw [List.getElem?_append]
  split
  · constructor
    · exact .inl
    · rintro (h | ⟨rfl, -⟩)
      · exact h
      · omega
  · have hnone : xs[i]? = none := List.getElem?_eq_none (by omega)
    have hzero : i - xs.length = 0 ↔ i = xs.length := by omega
    simp [hnone, List.getElem?_singleton, hzero]

/-! ## Cuts -/

/-- What stands before the last occurrence of a character and what stands behind it. -/
theorem append_cons_inj_of_notMem_right {c : α} {front front' back back' : List α} (hback : c ∉ back)
    (hback' : c ∉ back') (h : front ++ c :: back = front' ++ c :: back') : front = front' ∧ back = back' := by
  classical
  have htake (xs : List α) {ys : List α} (hys : c ∉ ys) :
      ((xs ++ c :: ys).reverse.takeWhile (· ≠ c)) = ys.reverse := by
    have hall : ∀ y ∈ ys.reverse, (decide (y ≠ c)) = true := fun y hy =>
      decide_eq_true fun heq => hys (heq ▸ List.mem_reverse.1 hy)
    rw [List.reverse_append, List.reverse_cons, List.append_assoc, List.takeWhile_append_of_pos hall]
    simp
  obtain rfl : back = back' := List.reverse_inj.1 (by rw [← htake front hback, h, htake front' hback'])
  exact ⟨List.append_cancel_right h, rfl⟩

/-! ## Related lists -/

theorem exists_of_forall₂ {R : α → β → Prop} {xs : List α} {ys : List β} (h : List.Forall₂ R xs ys) {x : α}
    (hx : x ∈ xs) : ∃ y ∈ ys, R x y := by
  induction h with
  | nil => cases hx
  | cons hxy _ ih =>
    rcases List.mem_cons.1 hx with rfl | hx
    · exact ⟨_, List.mem_cons_self, hxy⟩
    · obtain ⟨y, hy, hR⟩ := ih hx
      exact ⟨y, List.mem_cons_of_mem _ hy, hR⟩

/-- The lists have the same members, maybe in another order and another number of times. -/
def SameMembers (xs ys : List α) : Prop := ∀ a, a ∈ xs ↔ a ∈ ys

theorem SameMembers.refl (xs : List α) : SameMembers xs xs := fun _ => Iff.rfl

theorem SameMembers.symm {xs ys : List α} (h : SameMembers xs ys) : SameMembers ys xs := fun a => (h a).symm

theorem SameMembers.append {xs ys xs' ys' : List α} (h : SameMembers xs ys) (h' : SameMembers xs' ys') :
    SameMembers (xs ++ xs') (ys ++ ys') := by
  intro a
  rw [List.mem_append, List.mem_append, h a, h' a]

theorem SameMembers.isEmpty_eq {xs ys : List α} (h : SameMembers xs ys) : xs.isEmpty = ys.isEmpty := by
  rw [Bool.eq_iff_iff, List.isEmpty_iff, List.isEmpty_iff, List.eq_nil_iff_forall_not_mem,
    List.eq_nil_iff_forall_not_mem]
  exact forall_congr' fun a => not_congr (h a)

/-- Every member of each list is related to one of the other. -/
structure Matching (R : α → β → Prop) (xs : List α) (ys : List β) : Prop where
  left : ∀ x ∈ xs, ∃ y ∈ ys, R x y
  right : ∀ y ∈ ys, ∃ x ∈ xs, R x y

theorem Matching.flatMap {γ : Type} {R : α → β → Prop} {xs : List α} {ys : List β} {f : α → List γ} {g : β → List γ}
    (h : Matching R xs ys) (hfg : ∀ x y, R x y → SameMembers (f x) (g y)) :
    SameMembers (xs.flatMap f) (ys.flatMap g) := by
  intro a
  rw [List.mem_flatMap, List.mem_flatMap]
  constructor
  · rintro ⟨x, hx, ha⟩
    obtain ⟨y, hy, hxy⟩ := h.left x hx
    exact ⟨y, hy, (hfg x y hxy a).1 ha⟩
  · rintro ⟨y, hy, ha⟩
    obtain ⟨x, hx, hxy⟩ := h.right y hy
    exact ⟨x, hx, (hfg x y hxy a).2 ha⟩

theorem Matching.flatten {R : α → β → Prop} {xss : List (List α)} {yss : List (List β)}
    (h : Matching (Matching R) xss yss) : Matching R xss.flatten yss.flatten := by
  constructor
  · intro x hx
    obtain ⟨xs, hxs, hx⟩ := List.mem_flatten.1 hx
    obtain ⟨ys, hys, hmatch⟩ := h.left xs hxs
    obtain ⟨y, hy, hxy⟩ := hmatch.left x hx
    exact ⟨y, List.mem_flatten.2 ⟨ys, hys, hy⟩, hxy⟩
  · intro y hy
    obtain ⟨ys, hys, hy⟩ := List.mem_flatten.1 hy
    obtain ⟨xs, hxs, hmatch⟩ := h.right ys hys
    obtain ⟨x, hx, hxy⟩ := hmatch.right y hy
    exact ⟨x, List.mem_flatten.2 ⟨xs, hxs, hx⟩, hxy⟩

theorem Matching.sameMembers_flatten {xss yss : List (List α)} (h : Matching SameMembers xss yss) :
    SameMembers xss.flatten yss.flatten := by
  rw [← List.flatMap_id, ← List.flatMap_id]
  exact h.flatMap fun _ _ hxy => hxy

/-- Lists of representatives of the same classes can be paired, if no class has two representatives in a list. -/
theorem exists_perm_forall₂ {R : α → α → Prop} (hsymm : ∀ {a b}, R a b → R b a)
    (htrans : ∀ {a b c}, R a b → R b c → R a c) {xs ys : List α} (hxs : xs.Pairwise fun a b => ¬ R a b)
    (hys : ys.Pairwise fun a b => ¬ R a b) (h : Matching R xs ys) :
    ∃ paired, paired.Perm ys ∧ List.Forall₂ R xs paired := by
  obtain ⟨hleft, hright⟩ := h
  choose! partner hpartner hR using hleft
  have hself : ∀ y ∈ ys, R y y := fun y hy => by
    obtain ⟨x, -, hx⟩ := hright y hy
    exact htrans (hsymm hx) hx
  have hunique : ∀ y ∈ ys, ∀ y' ∈ ys, R y y' → y = y' := by
    intro y hy y' hy' hyy'
    by_contra hne
    have hpair : ys.Pairwise fun a b => ¬ R a b ∧ ¬ R b a := hys.imp fun hab => ⟨hab, fun hba => hab (hsymm hba)⟩
    have hsym : Std.Symm fun a b => ¬ R a b ∧ ¬ R b a := ⟨fun _ _ hab => hab.symm⟩
    exact (hpair.forall hy hy' hne).1 hyy'
  have hnodup : (xs.map partner).Nodup := by
    refine List.pairwise_map.2 (hxs.imp_of_mem fun {a b} ha hb hab heq => hab ?_)
    exact htrans (hR a ha) (heq ▸ hsymm (hR b hb))
  have hnodup' : ys.Nodup := hys.imp_of_mem fun {a b} ha _ hab heq => hab (heq ▸ hself a ha)
  refine ⟨xs.map partner, (List.perm_ext_iff_of_nodup hnodup hnodup').2 fun y => ?_, ?_⟩
  · rw [List.mem_map]
    constructor
    · rintro ⟨x, hx, rfl⟩; exact hpartner x hx
    · intro hy
      obtain ⟨x, hx, hxy⟩ := hright y hy
      exact ⟨x, hx, hunique _ (hpartner x hx) y hy (htrans (hsymm (hR x hx)) hxy)⟩
  · rw [List.forall₂_map_right_iff, List.forall₂_same]
    exact hR

end ControlPlane
