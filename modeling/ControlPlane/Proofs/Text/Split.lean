/-
Pieces that are put together are found again. A cut passes over characters that are not in the delimiter
(`cut_append_of_not_mem`), so pieces without the delimiter that are joined by it are split into the same pieces
(`split_intercalate`), and a doubled delimiter is not found before the end of pieces that are not empty
(`cut_doubled_intercalate`). Nor does any piece of a text hold the delimiter (`not_isInfix_of_mem_split`).

A doubled delimiter is found as far to the left as it can be, so no piece but the last one ends in its character
(`getLast?_ne_of_mem_split`). Pieces without the doubled character are therefore found again exactly if none of
them but the last one ends in the character (`split_doubled_intercalate_iff`).
-/
import Mathlib.Data.List.Infix
import ControlPlane.Text.Split

namespace ControlPlane.Text

variable {d : Char} {ds : List Char} {piece text rest : List Char} {pieces : List (List Char)}

theorem cut_cons_of_ne {c : Char} (h : d ≠ c) :
    cut (d :: ds) (c :: text) = (cut (d :: ds) text).map fun p => (c :: p.1, p.2) := by
  simp [cut, dropStart?, h]

theorem cut_append_of_not_mem (h : d ∉ piece) :
    cut (d :: ds) (piece ++ text) = (cut (d :: ds) text).map fun p => (piece ++ p.1, p.2) := by
  induction piece with
  | nil => simp
  | cons c piece ih =>
    rw [List.mem_cons, not_or] at h
    rw [List.cons_append, cut_cons_of_ne h.1, ih h.2, Option.map_map]
    rfl

theorem cut_self : cut (d :: ds) (d :: ds ++ text) = some ([], text) := by
  have h := dropStart?_append (d :: ds) text
  rw [List.cons_append] at h ⊢
  simp only [cut, h]

theorem cut_eq_none_of_not_mem (h : d ∉ piece) : cut (d :: ds) piece = none := by
  have hcut : cut (d :: ds) (piece ++ []) = none := cut_append_of_not_mem h
  rwa [List.append_nil] at hcut

/-! ## Pieces do not hold the delimiter -/

theorem not_isPrefix_of_dropStart?_eq_none {delimiter : List Char} (h : dropStart? delimiter text = none) :
    ¬ delimiter <+: text := by
  rintro ⟨rest, rfl⟩
  rw [dropStart?_append] at h
  cases h

/-- The text before the first occurrence holds none. -/
theorem not_isInfix_of_cut : ∀ {text before after : List Char}, cut (d :: ds) text = some (before, after) →
    ¬ d :: ds <:+: before
  | [], _, _, h => by simp [cut, dropStart?] at h
  | c :: text, before, after, h => by
    rw [cut] at h
    split at h
    · cases h; simp
    · next hstart =>
      obtain ⟨⟨rest, after'⟩, hcut, heq⟩ := Option.map_eq_some_iff.1 h
      cases heq
      rw [List.infix_cons_iff, not_or]
      refine ⟨fun hprefix => not_isPrefix_of_dropStart?_eq_none hstart ?_, not_isInfix_of_cut hcut⟩
      rw [eq_append_of_cut hcut, List.append_assoc]
      exact hprefix.trans (List.prefix_append (c :: rest) _)

theorem not_isInfix_of_cut_eq_none : ∀ {text : List Char}, cut (d :: ds) text = none → ¬ d :: ds <:+: text
  | [], _ => by simp
  | c :: text, h => by
    rw [cut] at h
    split at h
    · cases h
    · next hstart =>
      rw [List.infix_cons_iff, not_or]
      exact ⟨not_isPrefix_of_dropStart?_eq_none hstart, not_isInfix_of_cut_eq_none (Option.map_eq_none_iff.1 h)⟩

theorem not_isInfix_of_mem_split (h : piece ∈ split d ds text) : ¬ d :: ds <:+: piece := by
  fun_induction split d ds text with
  | case1 text hcut =>
    rw [List.mem_singleton.1 h]
    exact not_isInfix_of_cut_eq_none hcut
  | case2 text before after hcut ih =>
    rcases List.mem_cons.1 h with rfl | h
    · exact not_isInfix_of_cut hcut
    · exact ih h

/-! ## One character between the pieces -/

theorem split_singleton_of_not_mem (h : d ∉ piece) : split d [] piece = [piece] :=
  split_of_cut_none (cut_eq_none_of_not_mem h)

theorem split_append_cons (h : d ∉ piece) : split d [] (piece ++ d :: text) = piece :: split d [] text := by
  apply split_of_cut_some
  rw [cut_append_of_not_mem h, show d :: text = d :: [] ++ text from rfl, cut_self]
  simp

theorem split_intercalate (hne : pieces ≠ []) (h : ∀ piece ∈ pieces, d ∉ piece) :
    split d [] ([d].intercalate pieces) = pieces := by
  induction pieces with
  | nil => exact absurd rfl hne
  | cons piece pieces ih =>
    rw [List.forall_mem_cons] at h
    cases pieces with
    | nil => simpa using split_singleton_of_not_mem h.1
    | cons piece' pieces =>
      rw [List.intercalate_cons_cons, List.append_assoc, List.singleton_append, split_append_cons h.1,
        ih (by simp) h.2]

theorem split_append (d : Char) (text text' : List Char) :
    split d [] (text ++ d :: text') = split d [] text ++ split d [] text' := by
  fun_induction split d [] text with
  | case1 text h => exact split_append_cons (mt (List.singleton_infix_iff _ _).2 (not_isInfix_of_cut_eq_none h))
  | case2 text before after h ih =>
    rw [eq_append_of_cut h, List.append_assoc, List.append_assoc, List.singleton_append, List.cons_append,
      split_append_cons (mt (List.singleton_infix_iff _ _).2 (not_isInfix_of_cut h)), ih]

/-! ## A doubled character between the pieces -/

theorem cut_doubled_cons {c : Char} (h : d ≠ c) :
    cut [d, d] (d :: c :: text) = (cut [d, d] (c :: text)).map fun p => (d :: p.1, p.2) := by
  rw [cut]
  simp [dropStart?, h]

theorem cut_doubled_intercalate (text : List Char) (h : ∀ piece ∈ pieces, piece ≠ [] ∧ d ∉ piece) :
    cut [d, d] ([d].intercalate pieces ++ text) =
      (cut [d, d] text).map fun p => ([d].intercalate pieces ++ p.1, p.2) := by
  induction pieces with
  | nil => simp
  | cons piece pieces ih =>
    rw [List.forall_mem_cons] at h
    cases pieces with
    | nil => simpa using cut_append_of_not_mem h.1.2
    | cons piece' pieces =>
      -- the next piece is not empty, so the delimiter before it stands alone
      obtain ⟨c, cs, rfl⟩ := List.exists_cons_of_ne_nil (h.2 piece' (by simp)).1
      have hd : d ≠ c := fun e => (h.2 (c :: cs) (by simp)).2 (by simp [e])
      obtain ⟨rest, hrest⟩ : ∃ rest, [d].intercalate ((c :: cs) :: pieces) = c :: rest := by
        cases pieces <;> simp
      have ih := ih h.2
      rw [hrest] at ih
      rw [List.intercalate_cons_cons, hrest]
      simp only [List.append_assoc, List.cons_append, List.nil_append] at ih ⊢
      rw [cut_append_of_not_mem h.1.2, cut_doubled_cons hd, ih, Option.map_map, Option.map_map]
      rfl

/-! ## Pieces that end in a single delimiter character -/

theorem cut_eq_none_of_not_isInfix {delimiter : List Char} (h : ¬ delimiter <:+: text) : cut delimiter text = none :=
  Option.eq_none_iff_forall_ne_some.2 fun p hp => h ⟨p.1, p.2, (eq_append_of_cut hp).symm⟩

theorem cut_doubled_append (h : ¬ [d, d] <:+: piece) (hlast : piece.getLast? ≠ some d) :
    cut [d, d] (piece ++ d :: d :: text) = some (piece, text) := by
  induction piece with
  | nil => exact cut_self
  | cons c piece ih =>
    have hinfix : ¬ [d, d] <:+: piece := fun hin => h (hin.trans (List.suffix_cons c piece).isInfix)
    cases piece with
    | nil =>
      have hc : d ≠ c := fun e => hlast (by rw [e]; rfl)
      rw [List.cons_append, cut_cons_of_ne hc, ih hinfix (by simp)]
      rfl
    | cons c' piece =>
      have ih := ih hinfix (by rwa [List.getLast?_cons_cons] at hlast)
      by_cases hc : d = c
      · -- the character stands alone, because the next one is another one
        subst hc
        have hc' : d ≠ c' := fun e => h (by rw [e]; exact ⟨[], piece, rfl⟩)
        rw [List.cons_append, List.cons_append, cut_doubled_cons hc', ← List.cons_append, ih]
        rfl
      · rw [List.cons_append, cut_cons_of_ne hc, ih]
        rfl

theorem getLast?_ne_of_cut : ∀ {text before after : List Char}, cut [d, d] text = some (before, after) →
    before.getLast? ≠ some d
  | [], _, _, h => by simp [cut, dropStart?] at h
  | c :: text, before, after, h => by
    rw [cut] at h
    split at h
    · cases h; simp
    · next hstart =>
      obtain ⟨⟨rest, after'⟩, hcut, heq⟩ := Option.map_eq_some_iff.1 h
      cases heq
      cases rest with
      | nil =>
        -- the text goes on with the doubled character, so it cannot start with one more
        rintro hc
        obtain rfl : c = d := by simpa using hc
        rw [eq_append_of_cut hcut] at hstart
        simp [dropStart?] at hstart
      | cons c' rest =>
        rw [List.getLast?_cons_cons]
        exact getLast?_ne_of_cut hcut

/-- Of the pieces between doubled characters, none but the last one ends in the character. -/
theorem getLast?_ne_of_mem_split {text piece : List Char} (h : piece ∈ (split d [d] text).dropLast) :
    piece.getLast? ≠ some d := by
  fun_induction split d [d] text with
  | case1 text hcut => simp at h
  | case2 text before after hcut ih =>
    rw [List.dropLast_cons_of_ne_nil (split_ne_nil d [d] after), List.mem_cons] at h
    rcases h with rfl | h
    · exact getLast?_ne_of_cut hcut
    · exact ih h

theorem split_doubled_intercalate (hne : pieces ≠ []) (h : ∀ piece ∈ pieces, ¬ [d, d] <:+: piece)
    (hlast : ∀ piece ∈ pieces.dropLast, piece.getLast? ≠ some d) :
    split d [d] ([d, d].intercalate pieces) = pieces := by
  induction pieces with
  | nil => exact absurd rfl hne
  | cons piece pieces ih =>
    rw [List.forall_mem_cons] at h
    cases pieces with
    | nil => simpa using split_of_cut_none (cut_eq_none_of_not_isInfix h.1)
    | cons piece' pieces =>
      rw [List.dropLast_cons_of_ne_nil (List.cons_ne_nil _ _), List.forall_mem_cons] at hlast
      have hcut : cut [d, d] (piece ++ d :: d :: [d, d].intercalate (piece' :: pieces)) =
          some (piece, [d, d].intercalate (piece' :: pieces)) := cut_doubled_append h.1 hlast.1
      rw [List.intercalate_cons_cons, List.append_assoc, List.cons_append, List.cons_append, List.nil_append,
        split_of_cut_some hcut, ih (List.cons_ne_nil _ _) h.2 hlast.2]

/-- Pieces without the doubled character are found again exactly if none but the last one ends in the
character. -/
theorem split_doubled_intercalate_iff (hne : pieces ≠ []) (h : ∀ piece ∈ pieces, ¬ [d, d] <:+: piece) :
    split d [d] ([d, d].intercalate pieces) = pieces ↔ ∀ piece ∈ pieces.dropLast, piece.getLast? ≠ some d := by
  refine ⟨fun hsplit piece hpiece => ?_, split_doubled_intercalate hne h⟩
  rw [← hsplit] at hpiece
  exact getLast?_ne_of_mem_split hpiece

/-- A text in front of a doubled character cannot be continued up to another one, unless it ends in the character
after that and not before. -/
theorem eq_nil_of_append_doubled {text' : List Char} (h : ¬ [d, d] <:+: piece ++ text)
    (hlast : (piece ++ text).getLast? = some d → piece.getLast? = some d)
    (heq : d :: d :: text' = text ++ d :: d :: rest) : text = [] := by
  cases text with
  | nil => rfl
  | cons c text =>
    obtain rfl : d = c := by simpa using congrArg List.head? heq
    cases text with
    | nil =>
      obtain ⟨before, rfl⟩ := List.getLast?_eq_some_iff.1 (hlast List.getLast?_concat)
      exact absurd ⟨before, [], by simp⟩ h
    | cons c' text =>
      obtain ⟨rfl, -⟩ : d = c' ∧ _ := by simpa using heq
      exact absurd ⟨piece, text, by simp⟩ h

/-- What stands before a doubled character is determined, if it does not hold it and it is known whether it ends
in the character. -/
theorem append_doubled_inj {piece' text' : List Char} (h : ¬ [d, d] <:+: piece) (h' : ¬ [d, d] <:+: piece')
    (hlast : piece.getLast? = some d ↔ piece'.getLast? = some d)
    (heq : piece ++ d :: d :: text = piece' ++ d :: d :: text') : piece = piece' ∧ text = text' := by
  rcases List.append_eq_append_iff.1 heq with ⟨more, rfl, hmore⟩ | ⟨more, rfl, hmore⟩
  · obtain rfl := eq_nil_of_append_doubled h' hlast.2 hmore
    simpa using hmore
  · obtain rfl := eq_nil_of_append_doubled h hlast.1 hmore
    simpa using hmore.symm

end ControlPlane.Text
