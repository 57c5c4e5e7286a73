/-
Which entries stay, as a law of the list. Among entries that repeat no kind of field, the essential ones are the first
ones of those classes of equal entries that no entry strictly subsumes (`essential_represents`). The entries that others
make redundant can be left out before or after, without a change of the rest: to make redundant is transitive there, so
one that stays takes the place of one that was left out (`essential_incremental`).

With repeated kinds it is not transitive. Still, no position that stays makes another one that stays redundant, and this
is all that a second pass asks.
-/
import ControlPlane.Proofs.Flow.Representatives

namespace ControlPlane.FlowEntry

variable {flows : List FlowEntry}

/-! ## A second pass -/

theorem kept_kept (positions : List (Fin flows.length)) : kept (kept positions) = kept positions := by
  refine List.filter_eq_self.2 fun j hj => decide_eq_true fun i hi => ?_
  exact (mem_kept.1 hj).2 i ((kept_sublist positions).subset hi)

theorem essential_eq_self_iff : essential flows = flows ↔ ∀ i j, ¬ MakesRedundant flows i j := by
  constructor
  · intro h i j
    have hlength : (kept (List.finRange flows.length)).length = (List.finRange flows.length).length := by
      rw [List.length_finRange, ← List.length_map, ← essential_eq, h]
    have hall := (kept_sublist (List.finRange flows.length)).eq_of_length hlength
    exact mem_kept_finRange.1 (by rw [hall]; exact List.mem_finRange j) i
  · intro h
    have hall : kept (List.finRange flows.length) = List.finRange flows.length :=
      List.filter_eq_self.2 fun j _ => decide_eq_true fun i _ => h i j
    rw [essential_eq, hall, List.map_get_finRange]

theorem essential_essential (flows : List FlowEntry) : essential (essential flows) = essential flows := by
  rw [essential_eq flows, essential_map (ascending_kept flows), kept_kept]

/-! ## Pass by pass -/

section Parts

variable (hflows : ∀ f ∈ flows, f.Distinct)
include hflows

theorem exists_kept_redundant {positions : List (Fin flows.length)} {i : Fin flows.length} (hi : i ∈ positions) :
    ∃ s ∈ kept positions, s = i ∨ MakesRedundant flows s i := by
  obtain ⟨s, hs, h⟩ := exists_kept hi
  exact ⟨s, hs, h.imp_right (makesRedundant_iff hflows).2⟩

/-- What makes an entry of either part redundant may be dropped from its part, but one that is kept replaces it. -/
theorem redundant_in_parts_iff {left right : List (Fin flows.length)} {j : Fin flows.length} :
    (∀ i ∈ kept left ++ kept right, ¬ MakesRedundant flows i j) ↔ ∀ i ∈ left ++ right, ¬ MakesRedundant flows i j := by
  constructor
  · intro h i hi hij
    obtain ⟨s, hs, hsi⟩ : ∃ s ∈ kept left ++ kept right, s = i ∨ MakesRedundant flows s i := by
      rcases List.mem_append.1 hi with hi | hi
      · obtain ⟨s, hs, hsi⟩ := exists_kept_redundant hflows hi
        exact ⟨s, List.mem_append_left _ hs, hsi⟩
      · obtain ⟨s, hs, hsi⟩ := exists_kept_redundant hflows hi
        exact ⟨s, List.mem_append_right _ hs, hsi⟩
    refine h s hs ?_
    rcases hsi with rfl | hsi
    · exact hij
    · exact hsi.trans hflows hij
  · intro h i hi
    exact h i (((kept_sublist left).append (kept_sublist right)).subset hi)

theorem kept_append (left right : List (Fin flows.length)) : kept (kept left ++ kept right) = kept (left ++ right) := by
  have hpart : ∀ part, part ⊆ left ++ right →
      (kept part).filter (fun j => ∀ i ∈ kept left ++ kept right, ¬ MakesRedundant flows i j) =
        part.filter fun j => ∀ i ∈ left ++ right, ¬ MakesRedundant flows i j := by
    intro part hpart
    refine List.filter_filter.trans (List.filter_congr fun j _ => ?_)
    rw [← Bool.decide_and, decide_eq_decide, redundant_in_parts_iff hflows]
    exact and_iff_left_of_imp fun h i hi => h i (hpart hi)
  calc kept (kept left ++ kept right)
      = left.filter (fun j => ∀ i ∈ left ++ right, ¬ MakesRedundant flows i j) ++
          right.filter fun j => ∀ i ∈ left ++ right, ¬ MakesRedundant flows i j := by
        rw [← hpart left (List.subset_append_left _ _), ← hpart right (List.subset_append_right _ _)]
        exact List.filter_append _ _
    _ = kept (left ++ right) := (List.filter_append _ _).symm

end Parts

theorem essential_append {a b : List FlowEntry} (ha : ∀ f ∈ a, f.Distinct) (hb : ∀ f ∈ b, f.Distinct) :
    essential (essential a ++ essential b) = essential (a ++ b) := by
  have hflows : ∀ f ∈ a ++ b, f.Distinct := List.forall_mem_append.2 ⟨ha, hb⟩
  -- the positions of the joined list, up to the end of the first part and after it
  obtain ⟨left, right, hsplit, hleft, hright⟩ : ∃ left right : List (Fin (a ++ b).length),
      left ++ right = List.finRange (a ++ b).length ∧ left.map (a ++ b).get = a ∧ right.map (a ++ b).get = b := by
    refine ⟨_, _, List.take_append_drop a.length _, ?_, ?_⟩
    · rw [List.map_take, List.map_get_finRange, List.take_left]
    · rw [List.map_drop, List.map_get_finRange, List.drop_left]
  have hascending : (left ++ right).Pairwise (· < ·) := hsplit ▸ List.pairwise_lt_finRange _
  obtain ⟨hl, hr, -⟩ := List.pairwise_append.1 hascending
  have hkept := hascending.sublist ((kept_sublist left).append (kept_sublist right))
  calc essential (essential a ++ essential b)
      = essential ((kept left ++ kept right).map (a ++ b).get) := by
        rw [List.map_append, ← essential_map hl, ← essential_map hr, hleft, hright]
    _ = (kept (left ++ right)).map (a ++ b).get := by rw [essential_map hkept, kept_append hflows]
    _ = essential (a ++ b) := by rw [hsplit, ← essential_eq]

/-- Dropping the redundant entries of two parts, and then of what is left of both, is dropping those of the joined list,
if no entry repeats a kind of field. Whatever the entries repeat, nothing that is left is redundant there, so a second
pass changes nothing. -/
theorem essential_incremental :
    (∀ a b : List FlowEntry, (∀ f ∈ a, f.Distinct) → (∀ f ∈ b, f.Distinct) →
      essential (essential a ++ essential b) = essential (a ++ b)) ∧
    ∀ flows : List FlowEntry, (∀ i j, ¬ MakesRedundant (essential flows) i j) ∧
      essential (essential flows) = essential flows := by
  refine ⟨fun a b => essential_append, fun flows => ⟨?_, essential_essential flows⟩⟩
  exact essential_eq_self_iff.1 (essential_essential flows)

/-- The narrow entry owes its removal to two equal entries, of which the second part keeps the first one only. -/
theorem essential_incremental_reworded :
    ((∀ f ∈ [taggingFewer], f.Distinct) ∧ ∀ f ∈ [taggingAgain, tagging], f.Distinct) ∧
    essential (essential [taggingFewer] ++ essential [taggingAgain, tagging]) =
      essential [taggingFewer, taggingAgain, tagging] ∧
    essential [taggingFewer, taggingAgain, tagging] = [taggingAgain] := by
  have hleft : ∀ f ∈ [taggingFewer], f.Distinct := by decide
  have hright : ∀ f ∈ [taggingAgain, tagging], f.Distinct := by decide
  exact ⟨⟨hleft, hright⟩, essential_incremental.1 _ _ hleft hright, by decide⟩

/-! ## Classes of equal entries -/

/-- No entry equal to the one at the position is before it. -/
def IsFirst (flows : List FlowEntry) (j : Fin flows.length) : Prop :=
  ∀ i : Fin flows.length, (flows.get i).equals (flows.get j) = true → j ≤ i

/-- No entry equal to the one at the position is strictly subsumed. -/
def IsMaximal (flows : List FlowEntry) (j : Fin flows.length) : Prop :=
  ∀ k : Fin flows.length, (flows.get k).equals (flows.get j) = true →
    ∀ i : Fin flows.length, (flows.get i).strictlySubsumes (flows.get k) = false

section Classes

variable (hflows : ∀ f ∈ flows, f.Distinct)
include hflows

theorem same_of_equals {i j : Fin flows.length} (h : (flows.get i).equals (flows.get j) = true) :
    (flows.get i).Same (flows.get j) :=
  ⟨hflows _ (List.get_mem flows i), hflows _ (List.get_mem flows j), h⟩

theorem mem_kept_iff {j : Fin flows.length} :
    j ∈ kept (List.finRange flows.length) ↔ IsFirst flows j ∧ IsMaximal flows j := by
  have hj : (flows.get j).Distinct := hflows _ (List.get_mem flows j)
  rw [mem_kept_finRange]
  constructor
  · intro h
    refine ⟨fun i hij => ?_, fun k hkj i => ?_⟩
    · by_contra hlt
      rw [not_le] at hlt
      exact h i ⟨hlt.ne, .inr ⟨hlt, hij⟩⟩
    · rw [← Bool.not_eq_true]
      intro hik
      have hij := (same_of_equals hflows hkj).strictlySubsumes hik
      refine h i ⟨fun heq => ?_, .inl hij⟩
      rw [heq] at hij
      exact absurd hij (Bool.eq_false_iff.1 hj.not_strictlySubsumes_self)
  · rintro ⟨hfirst, hmaximal⟩ i ⟨-, hij | ⟨hlt, hij⟩⟩
    · exact absurd hij (Bool.eq_false_iff.1 (hmaximal j hj.same.equals i))
    · exact absurd (hfirst i hij) (not_le.2 hlt)

/-- The maximal classes are those that have a representative, and they have only one. -/
theorem isMaximal_iff (j : Fin flows.length) :
    IsMaximal flows j ↔ ∃! s : Fin (essential flows).length, ((essential flows).get s).equals (flows.get j) = true := by
  have hj : (flows.get j).Distinct := hflows _ (List.get_mem flows j)
  have hsame : ∀ s : Fin (essential flows).length, ((essential flows).get s).equals (flows.get j) = true →
      ((essential flows).get s).Same (flows.get j) := fun s hs =>
    ⟨hflows _ ((essential_sublist flows).subset (List.get_mem _ s)), hj, hs⟩
  constructor
  · intro hmaximal
    have hnone : ∀ g ∈ flows, g.strictlySubsumes (flows.get j) = false := by
      intro g hg
      obtain ⟨i, rfl⟩ := List.get_of_mem hg
      exact hmaximal j hj.same.equals i
    obtain ⟨f, hf, hjf⟩ := exists_same_essential hflows (List.get_mem flows j) hnone
    obtain ⟨s, rfl⟩ := List.get_of_mem hf
    refine ⟨s, hjf.symm.equals, fun t ht => ?_⟩
    have hts : ((essential flows).get t).Same ((essential flows).get s) := (hsame t ht).trans hjf
    -- of two different representatives one would be before the other
    have hpairwise := List.pairwise_iff_get.1 (essential_pairwise flows)
    rcases lt_trichotomy t s with hlt | heq | hlt
    · exact absurd hts.equals (by simpa using hpairwise t s hlt)
    · exact heq
    · exact absurd hts.symm.equals (by simpa using hpairwise s t hlt)
  · rintro ⟨s, hs, -⟩ k hkj i
    rw [← Bool.not_eq_true]
    intro hik
    have hks := (same_of_equals hflows hkj).trans (hsame s hs).symm
    have hnone := not_strictlySubsumes_of_mem_essential hks.right (List.get_mem _ s) _ (List.get_mem flows i)
    exact absurd (hks.strictlySubsumes hik) (Bool.eq_false_iff.1 hnone)

end Classes

/-! ## Main result -/

/-- In a list of entries that repeat no kind of field the essential ones are, in their order, the first ones of the
classes of equal entries that no entry of the list strictly subsumes: each such class has one representative, and no
other class has any. So a list with its entries in another order has as many, and they can be paired with equal ones. -/
theorem essential_represents (hflows : ∀ f ∈ flows, f.Distinct) :
    (∃ positions : List (Fin flows.length), positions.Pairwise (· < ·) ∧ essential flows = positions.map flows.get ∧
      ∀ j, j ∈ positions ↔ IsFirst flows j ∧ IsMaximal flows j) ∧
    (∀ j, IsMaximal flows j ↔
      ∃! s : Fin (essential flows).length, ((essential flows).get s).equals (flows.get j) = true) ∧
    ∀ flows' : List FlowEntry, flows.Perm flows' → (essential flows).length = (essential flows').length ∧
      ∃ paired, paired.Perm (essential flows') ∧
        List.Forall₂ (fun f f' => f.equals f' = true) (essential flows) paired := by
  refine ⟨⟨kept (List.finRange flows.length), ascending_kept flows, essential_eq flows, fun j => mem_kept_iff hflows⟩,
    isMaximal_iff hflows, fun flows' hperm => ?_⟩
  obtain ⟨paired, hpaired, hpairs⟩ := essential_of_sameMembers hflows fun f => hperm.mem_iff
  exact ⟨hpairs.length_eq.trans hpaired.length_eq, paired, hpaired, hpairs.imp fun _ _ h => h.equals⟩

/-- Of two equal entries the first one represents both, so in another order the other one does. -/
theorem essential_represents_reworded : (∀ f ∈ [taggingFewer, taggingAgain, tagging], f.Distinct) ∧
    [taggingFewer, taggingAgain, tagging].Perm [tagging, taggingFewer, taggingAgain] ∧
    essential [taggingFewer, taggingAgain, tagging] = [taggingAgain] ∧
    ∃ s, essential [tagging, taggingFewer, taggingAgain] = [s] ∧ taggingAgain.equals s = true := by
  have hflows : ∀ f ∈ [taggingFewer, taggingAgain, tagging], f.Distinct := by decide
  have hperm : [taggingFewer, taggingAgain, tagging].Perm [tagging, taggingFewer, taggingAgain] := by decide
  have hfirst : essential [taggingFewer, taggingAgain, tagging] = [taggingAgain] := by decide
  obtain ⟨-, -, hpermuted⟩ := essential_represents hflows
  obtain ⟨-, paired, hpaired, hpairs⟩ := hpermuted _ hperm
  rw [hfirst] at hpairs
  cases hpairs with
  | @cons _ s _ _ hs hnil =>
    cases hnil
    exact ⟨hflows, hperm, hfirst, s, List.singleton_perm.1 hpaired |>.symm, hs⟩

end ControlPlane.FlowEntry
