/-
Sets of characters as ranges of code points. The ranges are in order and leave a gap between each
other, so a search stops at the first range that starts behind the code point.
-/

namespace ControlPlane.Text

/-- Ranges of code points, each with its first and its last one. -/
abbrev CharRanges := List (Nat × Nat)

namespace CharRanges

/-- Whether every range starts behind a bound and ends before the next one starts. -/
def orderedFrom : Nat → CharRanges → Bool
  | _, [] => true
  | bound, (first, last) :: ranges => bound ≤ first && first ≤ last && orderedFrom (last + 2) ranges

/-- Whether a code point is in one of the ranges, given that they are in order. -/
def contains (n : Nat) : CharRanges → Bool
  | [] => false
  | (first, last) :: ranges => first ≤ n && (n ≤ last || contains n ranges)

theorem contains_eq_false_of_lt {bound n : Nat} {ranges : CharRanges}
    (h : orderedFrom bound ranges = true) (hn : n < bound) : contains n ranges = false := by
  cases ranges with
  | nil => rfl
  | cons r ranges =>
    simp only [orderedFrom, Bool.and_eq_true, decide_eq_true_eq] at h
    simp [contains, show ¬ r.1 ≤ n by omega]

/-- In ordered ranges, the search finds exactly the code points of some range. -/
theorem contains_iff {bound n : Nat} {ranges : CharRanges} (h : orderedFrom bound ranges = true) :
    contains n ranges = true ↔ ∃ r ∈ ranges, r.1 ≤ n ∧ n ≤ r.2 := by
  induction ranges generalizing bound with
  | nil => simp [contains]
  | cons r ranges ih =>
    simp only [orderedFrom, Bool.and_eq_true, decide_eq_true_eq] at h
    simp only [contains, Bool.and_eq_true, Bool.or_eq_true, decide_eq_true_eq, List.mem_cons,
      exists_eq_or_imp, ← ih h.2]
    constructor
    · rintro ⟨h1, h2 | h2⟩
      · exact .inl ⟨h1, h2⟩
      · exact .inr h2
    · rintro (h1 | h1)
      · exact ⟨h1.1, .inl h1.2⟩
      · refine ⟨?_, .inr h1⟩
        by_cases hn : n < r.2 + 2
        · rw [contains_eq_false_of_lt h.2 hn] at h1
          cases h1
        · omega

end CharRanges

end ControlPlane.Text
