/-
Cutting a list of characters at a delimiter. `cut` finds the first occurrence of the delimiter, and
`split` cuts at every occurrence, from the left and without overlaps. Putting the delimiter back
between the pieces gives the text again (`intercalate_split`).
-/

namespace ControlPlane.Text

/-! ## The first occurrence -/

/-- What follows the delimiter in a text that starts with it. -/
def dropStart? : (delimiter text : List Char) → Option (List Char)
  | [], text => some text
  | _ :: _, [] => none
  | d :: ds, c :: text => if d = c then dropStart? ds text else none

/-- The parts of a text before and after the first occurrence of the delimiter. -/
def cut (delimiter : List Char) : List Char → Option (List Char × List Char)
  | [] => (dropStart? delimiter []).map (([], ·))
  | c :: text =>
    match dropStart? delimiter (c :: text) with
    | some rest => some ([], rest)
    | none => (cut delimiter text).map fun p => (c :: p.1, p.2)

theorem eq_append_of_dropStart? : ∀ {delimiter text rest : List Char},
    dropStart? delimiter text = some rest → text = delimiter ++ rest
  | [], _, _, h => by simpa [dropStart?] using h
  | _ :: _, [], _, h => by simp [dropStart?] at h
  | d :: ds, c :: text, rest, h => by
    simp only [dropStart?] at h
    split at h
    · next hd => subst hd; simp [eq_append_of_dropStart? h]
    · cases h

theorem dropStart?_append (delimiter rest : List Char) :
    dropStart? delimiter (delimiter ++ rest) = some rest := by
  induction delimiter with
  | nil => rfl
  | cons d ds ih => simp [dropStart?, ih]

/-- A cut keeps every character: the two parts surround one delimiter. -/
theorem eq_append_of_cut {delimiter : List Char} : ∀ {text before after : List Char},
    cut delimiter text = some (before, after) → text = before ++ delimiter ++ after
  | [], before, after, h => by
    simp only [cut, Option.map_eq_some_iff, Prod.mk.injEq] at h
    obtain ⟨rest, hr, rfl, rfl⟩ := h
    simpa using eq_append_of_dropStart? hr
  | c :: text, before, after, h => by
    simp only [cut] at h
    split at h
    · next rest hr =>
      simp only [Option.some.injEq, Prod.mk.injEq] at h
      obtain ⟨rfl, rfl⟩ := h
      simpa using eq_append_of_dropStart? hr
    · simp only [Option.map_eq_some_iff, Prod.mk.injEq, Prod.exists] at h
      obtain ⟨a, b, hc, rfl, rfl⟩ := h
      simp [eq_append_of_cut hc]

theorem length_lt_of_cut {d : Char} {ds text before after : List Char}
    (h : cut (d :: ds) text = some (before, after)) : after.length < text.length := by
  rw [eq_append_of_cut h]
  simp only [List.length_append, List.length_cons]
  omega

/-! ## All occurrences -/

/-- The pieces of a text between the occurrences of the delimiter `d :: ds`. -/
def split (d : Char) (ds : List Char) (text : List Char) : List (List Char) :=
  match _ : cut (d :: ds) text with
  | none => [text]
  | some (before, after) => before :: split d ds after
termination_by text.length
decreasing_by exact length_lt_of_cut (by assumption)

theorem split_ne_nil (d : Char) (ds text : List Char) : split d ds text ≠ [] := by
  rw [split]; split <;> simp

theorem split_of_cut_none {d : Char} {ds text : List Char} (h : cut (d :: ds) text = none) :
    split d ds text = [text] := by
  rw [split]; split <;> simp_all

theorem split_of_cut_some {d : Char} {ds text before after : List Char}
    (h : cut (d :: ds) text = some (before, after)) :
    split d ds text = before :: split d ds after := by
  rw [split]; split <;> simp_all

/-- Splitting loses nothing: the pieces joined by the delimiter are the text. -/
theorem intercalate_split (d : Char) (ds text : List Char) :
    (d :: ds).intercalate (split d ds text) = text := by
  fun_induction split d ds text with
  | case1 text h => simp [List.intercalate]
  | case2 text before after h ih =>
    rw [eq_append_of_cut h]
    obtain ⟨piece, pieces, hp⟩ := List.exists_cons_of_ne_nil (split_ne_nil d ds after)
    rw [hp] at ih ⊢
    rw [← ih]
    simp [List.intercalate, List.intersperse]

end ControlPlane.Text
