/-
The essential entries of a list as representatives. Among entries that repeat no kind of field, to make redundant is a
strict order of positions: the other entry is strictly above, or equal and earlier (`makesRedundant_iff`). So three laws
say what is essential: no essential entry is strictly subsumed by an entry of the list, every entry that is not strictly
subsumed is equal to an essential one, and no two essential entries are equal.

Representatives of the same classes can be paired (`exists_perm_forall₂`). So the essential entries do not depend on
the order of a list or on how often an entry stands in it, up to their own order and equality
(`essential_of_sameMembers`).
-/
import ControlPlane.Proofs.Flow.Relations

namespace ControlPlane

namespace FlowEntry

variable {f : FlowEntry} {flows : List FlowEntry}

/-! ## What is essential -/

/-- One entry makes another one redundant exactly if it has the same target and is above it. -/
theorem makesRedundant_iff (hflows : ∀ f ∈ flows, f.Distinct) {i j : Fin flows.length} :
    MakesRedundant flows i j ↔ (flows.get i).sameTarget (flows.get j) = true ∧ Above flows i j := by
  constructor
  · intro h; exact ⟨h.sameTarget, h.above⟩
  · rintro ⟨htarget, hdominates, hback⟩
    have hi := (hflows _ (List.get_mem flows i)).pattern
    have hj := (hflows _ (List.get_mem flows j)).pattern
    refine ⟨fun hij => ?_, ?_⟩
    · subst hij
      exact above_irrefl i ⟨hdominates, hback⟩
    · cases he : (flows.get i).pattern.equals (flows.get j).pattern with
      | false => exact .inl (strictlySubsumes_iff.2 ⟨htarget, Match.subsumes_of_covers hj hdominates.1, he⟩)
      | true =>
        have hlt := hback (Match.dominates_of_equals (Match.equals_symm hi he))
        exact .inr ⟨hlt, equals_iff.2 ⟨htarget, he⟩⟩

theorem MakesRedundant.trans (hflows : ∀ f ∈ flows, f.Distinct) {i j k : Fin flows.length}
    (h : MakesRedundant flows i j) (h' : MakesRedundant flows j k) : MakesRedundant flows i k :=
  (makesRedundant_iff hflows).2 ⟨sameTarget_trans h.sameTarget h'.sameTarget, h.above.trans h'.above⟩

theorem not_strictlySubsumes_of_mem_essential (hf : f.Distinct) (h : f ∈ essential flows) :
    ∀ g ∈ flows, g.strictlySubsumes f = false := by
  intro g hg
  rw [essential_eq] at h
  obtain ⟨j, hj, rfl⟩ := List.mem_map.1 h
  obtain ⟨i, rfl⟩ := List.get_of_mem hg
  by_cases hij : i = j
  · rw [hij]
    exact hf.not_strictlySubsumes_self
  · rw [← Bool.not_eq_true]
    exact fun hs => mem_kept_finRange.1 hj i ⟨hij, .inl hs⟩

/-- An entry that is not strictly subsumed is equal to one that stays. -/
theorem exists_same_essential (hflows : ∀ f ∈ flows, f.Distinct) (hf : f ∈ flows)
    (h : ∀ g ∈ flows, g.strictlySubsumes f = false) : ∃ s ∈ essential flows, f.Same s := by
  obtain ⟨j, rfl⟩ := List.get_of_mem hf
  obtain ⟨s, hs, habove⟩ := exists_essential j
  refine ⟨flows.get s, hs, ?_⟩
  rcases habove with rfl | habove
  · exact (hflows _ hf).same
  · have hmem := List.get_mem flows s
    obtain ⟨-, hstrict | ⟨-, hequals⟩⟩ := (makesRedundant_iff hflows).2 habove
    · exact absurd hstrict (Bool.eq_false_iff.1 (h _ hmem))
    · have hsame : (flows.get s).Same (flows.get j) := ⟨hflows _ hmem, hflows _ hf, hequals⟩
      exact hsame.symm

/-- An essential entry of one list is equal to an essential one of a list with the same members. -/
theorem exists_same_of_sameMembers {flows' : List FlowEntry} (hflows : ∀ f ∈ flows, f.Distinct)
    (hmem : SameMembers flows flows') (hf : f ∈ essential flows) : ∃ s ∈ essential flows', f.Same s := by
  have hin : f ∈ flows := (essential_sublist flows).subset hf
  refine exists_same_essential (fun g hg => hflows g ((hmem g).2 hg)) ((hmem f).1 hin) fun g hg => ?_
  exact not_strictlySubsumes_of_mem_essential (hflows f hin) hf g ((hmem g).2 hg)

/-- Lists with the same members have the same essential entries, up to their order and equality. -/
theorem essential_of_sameMembers {flows' : List FlowEntry} (hflows : ∀ f ∈ flows, f.Distinct)
    (hmem : SameMembers flows flows') :
    ∃ paired, paired.Perm (essential flows') ∧ List.Forall₂ Same (essential flows) paired := by
  have hflows' : ∀ f ∈ flows', f.Distinct := fun f hf => hflows f ((hmem f).2 hf)
  have hpairwise : ∀ flows, (essential flows).Pairwise fun f g => ¬ f.Same g := by
    refine fun flows => (essential_pairwise flows).imp fun hne hsame => ?_
    rw [hsame.equals] at hne
    cases hne
  refine exists_perm_forall₂ (R := Same) Same.symm Same.trans (hpairwise flows) (hpairwise flows') ?_
  refine ⟨fun f hf => ?_, fun f hf => ?_⟩
  · exact exists_same_of_sameMembers hflows hmem hf
  · obtain ⟨s, hs, hsame⟩ := exists_same_of_sameMembers hflows' hmem.symm hf
    exact ⟨s, hs, hsame.symm⟩

end FlowEntry

end ControlPlane
