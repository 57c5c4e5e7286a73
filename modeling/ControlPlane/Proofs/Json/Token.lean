/-
Tokens read back from what is written. The scanner takes a piece of a text to its tokens whatever stands before
it (`Scans`), as long as the text goes on with a character that does not belong to a number or a word. So a text
that is written token by token, with blanks in between, is scanned piece by piece; the pieces with an inside are
numerals, which have no leading zero, and strings, where every escape is undone.
-/
import Mathlib.Data.List.TakeWhile
import ControlPlane.Json.Token
import ControlPlane.Json.Writer
import ControlPlane.Proofs.Numeral

namespace ControlPlane.Json.Token

/-! ## The scanner -/

/-- The tokens of a text that goes on from a state of the scanner. -/
def Scan.run (s : Scan) (text : List Char) : Option (List Token) := (text.foldlM step? s).bind finish?

theorem Scan.run_cons {s s' : Scan} {c : Char} {text : List Char} (h : s.step? c = some s') :
    s.run (c :: text) = s'.run text := by
  simp only [run, List.foldlM_cons, h]
  rfl

theorem Scan.run_between {s' : Scan} {earlier : List Token} {c : Char} {text : List Char}
    (h : between? earlier c = some s') : Scan.run ⟨earlier, .none⟩ (c :: text) = s'.run text :=
  run_cons h

/-- The text does not go on with a character of a number or a word. -/
def Ends (text : List Char) : Prop :=
  ∀ c ∈ text.head?, Scan.continuesNumber c = false ∧ c.isLower = false

theorem ends_nil : Ends [] := by simp [Ends]

@[simp] theorem ends_cons {c : Char} {text : List Char} :
    Ends (c :: text) ↔ Scan.continuesNumber c = false ∧ c.isLower = false := by
  simp [Ends]

theorem Ends.append {text rest : List Char} (h : Ends text) (hrest : Ends rest) : Ends (text ++ rest) := by
  cases text with
  | nil => exact hrest
  | cons c text => simpa using h

/-- The text is scanned to the tokens, whatever stands around it. -/
def Scans (text : List Char) (ts : List Token) : Prop :=
  ∀ earlier rest, Ends rest →
    Scan.run ⟨earlier, .none⟩ (text ++ rest) = Scan.run ⟨ts.reverse ++ earlier, .none⟩ rest

variable {text text' : List Char} {ts ts' : List Token} {c : Char} {t : Token}

theorem scans_nil : Scans [] [] := fun _ _ _ => rfl

theorem Scans.append (h : Scans text ts) (hends : Ends text') (h' : Scans text' ts') :
    Scans (text ++ text') (ts ++ ts') := by
  intro earlier rest hrest
  rw [List.append_assoc, h _ _ (hends.append hrest), h' _ _ hrest, List.reverse_append, List.append_assoc]

/-! ## Punctuation and blanks -/

theorem Scans.cons (ht : ∀ earlier, Scan.between? earlier c = some ⟨t :: earlier, .none⟩) (h : Scans text ts) :
    Scans (c :: text) (t :: ts) := by
  intro earlier rest hrest
  rw [List.cons_append, Scan.run_between (ht earlier), h _ _ hrest]
  simp

theorem Scans.blank (hc : ∀ earlier, Scan.between? earlier c = some ⟨earlier, .none⟩) (h : Scans text ts) :
    Scans (c :: text) ts := by
  intro earlier rest hrest
  rw [List.cons_append, Scan.run_between (hc earlier), h _ _ hrest]

/-- What is written between two tokens: blanks and ends of lines, or nothing. -/
def Gap (gap : List Char) : Prop := ∀ c ∈ gap, c = ' ' ∨ c = '\n'

theorem gap_nil : Gap [] := by simp [Gap]

theorem gap_space : Gap [' '] := by simp [Gap]

theorem gap_lineStart (level : Nat) : Gap (lineStart level).toList := by
  simp [Gap, lineStart]

theorem Gap.ends {gap rest : List Char} (hgap : Gap gap) (hrest : Ends rest) : Ends (gap ++ rest) := by
  cases gap with
  | nil => exact hrest
  | cons c gap =>
    rw [List.cons_append, ends_cons]
    rcases hgap c List.mem_cons_self with rfl | rfl <;> decide

theorem Scans.gap {gap : List Char} (hgap : Gap gap) (h : Scans text ts) : Scans (gap ++ text) ts := by
  induction gap with
  | nil => exact h
  | cons c gap ih =>
    obtain ⟨hc, hrest⟩ := List.forall_mem_cons.1 hgap
    refine (ih hrest).blank fun earlier => ?_
    rcases hc with rfl | rfl <;> rfl

/-! ## Words -/

theorem Scan.run_word {earlier : List Token} {letters rest : List Char} (ht : ofWord? letters.reverse = some t)
    (hrest : Ends rest) : Scan.run ⟨earlier, .word letters⟩ rest = Scan.run ⟨t :: earlier, .none⟩ rest := by
  cases rest with
  | nil => simp [run, finish?, ht]
  | cons c rest =>
    rw [ends_cons] at hrest
    simp only [run, List.foldlM_cons, step?, hrest.2, ht]
    rfl

theorem scans_null : Scans "null".toList [.null] := fun _ _ hrest => Scan.run_word rfl hrest

theorem scans_true : Scans "true".toList [.bool true] := fun _ _ hrest => Scan.run_word rfl hrest

theorem scans_false : Scans "false".toList [.bool false] := fun _ _ hrest => Scan.run_word rfl hrest

/-! ## Numbers -/

theorem Scan.run_numeral {earlier : List Token} {chars rest : List Char} (ht : ofNumber? chars.reverse = some t)
    (hrest : Ends rest) : Scan.run ⟨earlier, .numeral chars⟩ rest = Scan.run ⟨t :: earlier, .none⟩ rest := by
  cases rest with
  | nil => simp [run, finish?, ht]
  | cons c rest =>
    rw [ends_cons] at hrest
    simp only [run, List.foldlM_cons, step?, hrest.1, ht]
    rfl

theorem Scan.run_digits {earlier : List Token} {chars digits rest : List Char}
    (h : ∀ c ∈ digits, c.isDigit = true) :
    Scan.run ⟨earlier, .numeral chars⟩ (digits ++ rest) =
      Scan.run ⟨earlier, .numeral (digits.reverse ++ chars)⟩ rest := by
  induction digits generalizing chars with
  | nil => rfl
  | cons c digits ih =>
    rw [List.forall_mem_cons] at h
    have hstep : step? ⟨earlier, .numeral chars⟩ c = some ⟨earlier, .numeral (c :: chars)⟩ := by
      simp [step?, continuesNumber, h.1]
    rw [List.cons_append, run_cons hstep, ih h.2]
    simp

theorem Scan.between?_of_isDigit {earlier : List Token} (h : c.isDigit = true) :
    between? earlier c = some ⟨earlier, .numeral [c]⟩ := by
  unfold between?
  split
  case h_12 => simp [h]
  all_goals exact absurd h (by decide)

theorem isDigit_of_mem_toDigits {n : Nat} (h : c ∈ Nat.toDigits 10 n) : c.isDigit = true :=
  Nat.isDigit_of_mem_toDigits (by decide) (by decide) h

theorem ofNumber?_toDigits (n : Nat) : ofNumber? (Nat.toDigits 10 n) = some (.natural n) := by
  have hdigits : ∀ c ∈ Nat.toDigits 10 n, c.isDigit = true := fun _ => isDigit_of_mem_toDigits
  have hne : Nat.toDigits 10 n ≠ [] := Nat.toDigits_ne_nil
  have hsign : ∀ rest, Nat.toDigits 10 n ≠ '-' :: rest := by
    intro rest h
    have := hdigits '-' (by simp [h])
    simp at this
  have hzero : ¬ (1 < (Nat.toDigits 10 n).length ∧ (Nat.toDigits 10 n).head? = some '0') := by
    rintro ⟨hlen, hhead⟩
    refine Numeral.head?_toDigits (by decide) ?_ hhead
    rintro rfl
    simp at hlen
  have htake : (Nat.toDigits 10 n).takeWhile Char.isDigit = Nat.toDigits 10 n := by
    rw [List.takeWhile_eq_self_iff]; exact hdigits
  have hdrop : (Nat.toDigits 10 n).dropWhile Char.isDigit = [] := by
    rw [List.dropWhile_eq_nil_iff]; exact hdigits
  have hvalue : Nat.ofDigitChars 10 (Nat.toDigits 10 n) 0 = n := Nat.ofDigitChars_ten_toDigits
  generalize Nat.toDigits 10 n = digits at *
  unfold ofNumber?
  split
  · next rest => exact absurd rfl (hsign rest)
  · simp only [htake, hdrop, hvalue, List.isEmpty_nil, isFractionExponent, Bool.not_true, Bool.or_false,
      Bool.true_and, beq_self_eq_true, if_true]
    rw [if_neg]
    simpa [hne] using fun h1 h2 => hzero ⟨h1, h2⟩

theorem scans_decimal (n : Nat) : Scans (Numeral.decimal n).toList [.natural n] := by
  intro earlier rest hrest
  have hdigits : ∀ c ∈ Nat.toDigits 10 n, c.isDigit = true := fun _ => isDigit_of_mem_toDigits
  have ht := ofNumber?_toDigits n
  rw [Numeral.decimal, String.toList_ofList]
  obtain ⟨c, digits, hc⟩ := List.exists_cons_of_ne_nil (Nat.toDigits_ne_nil (n := n) (b := 10))
  rw [hc] at hdigits ht ⊢
  rw [List.forall_mem_cons] at hdigits
  rw [List.cons_append, Scan.run_between (Scan.between?_of_isDigit hdigits.1), Scan.run_digits hdigits.2,
    Scan.run_numeral (by simpa using ht) hrest]
  rfl

/-! ## Strings -/

theorem Scan.run_codeUnit {earlier : List Token} {q : Quoted} {missing unit d : Nat} {rest : List Char}
    (hd : Numeral.hexDigit? c = some d) :
    Scan.run ⟨earlier, .codeUnit q missing unit⟩ (c :: rest) =
      Scan.run ⟨earlier, if missing ≤ 1 then .quoted (q.pushUnit (unit * 16 + d))
        else .codeUnit q (missing - 1) (unit * 16 + d)⟩ rest := by
  refine run_cons ?_
  simp only [step?, hd, Option.map_some]
  split <;> rfl

/-- The four digits of the code unit of a control character. -/
theorem toList_hexPadded : ∀ n < 0x20, (Numeral.hexPadded 4 n).toList =
    ['0', '0', Nat.digitChar (n / 16), Nat.digitChar (n % 16)] := by
  decide

theorem Quoted.pushUnit_toNat (q : Quoted) (hc : c.toNat < 0x20) : q.pushUnit c.toNat = q.push c := by
  rw [pushUnit, if_neg (by omega), if_neg (by omega), Char.ofNat_toNat]

theorem Scan.run_escapeChar {earlier : List Token} {q : Quoted} {rest : List Char} (c : Char) :
    Scan.run ⟨earlier, .quoted q⟩ (escapeChar c ++ rest) = Scan.run ⟨earlier, .quoted (q.push c)⟩ rest := by
  unfold escapeChar
  split_ifs with h1 h2 h3 h4 h5 h6 h7 h8
  · subst h1; rfl
  · subst h2; rfl
  · subst h3; rfl
  · subst h4; rfl
  · subst h5; rfl
  · subst h6; rfl
  · subst h7; rfl
  · rw [toList_hexPadded _ h8]
    show Scan.run ⟨earlier, .codeUnit q 4 0⟩
      ('0' :: '0' :: Nat.digitChar (c.toNat / 16) :: Nat.digitChar (c.toNat % 16) :: rest) = _
    have hzero : Numeral.hexDigit? '0' = some 0 := rfl
    have hhigh := Numeral.hexDigit?_digitChar (c.toNat / 16) (by omega)
    have hlow := Numeral.hexDigit?_digitChar (c.toNat % 16) (by omega)
    have hunit : (((0 * 16 + 0) * 16 + 0) * 16 + c.toNat / 16) * 16 + c.toNat % 16 = c.toNat := by omega
    rw [run_codeUnit hzero, if_neg (by decide), run_codeUnit hzero, if_neg (by decide), run_codeUnit hhigh,
      if_neg (by decide), run_codeUnit hlow, if_pos (by decide), hunit, q.pushUnit_toNat h8]
  · exact run_cons (by simp [step?, h1, h2, h8])

theorem Scan.run_flatMap_escapeChar {earlier : List Token} {rest : List Char} (chars before : List Char) :
    Scan.run ⟨earlier, .quoted ⟨before, none, true⟩⟩ (chars.flatMap escapeChar ++ rest) =
      Scan.run ⟨earlier, .quoted ⟨chars.reverse ++ before, none, true⟩⟩ rest := by
  induction chars generalizing before with
  | nil => rfl
  | cons c chars ih =>
    rw [List.flatMap_cons, List.append_assoc, run_escapeChar]
    show Scan.run ⟨earlier, .quoted ⟨c :: before, none, true⟩⟩ _ = _
    rw [ih]
    simp

theorem scans_quote (s : String) : Scans (quote s).toList [.string s] := by
  intro earlier rest hrest
  have htoken : Quoted.token ⟨s.toList.reverse, none, true⟩ = .string s := by simp [Quoted.token]
  have hopen : Scan.between? earlier '"' = some ⟨earlier, .quoted ⟨[], none, true⟩⟩ := rfl
  have hclose : Scan.step? ⟨earlier, .quoted ⟨s.toList.reverse, none, true⟩⟩ '"' =
      some ⟨.string s :: earlier, .none⟩ := by
    rw [← htoken]; rfl
  rw [quote, String.toList_ofList, List.cons_append, List.cons_append, List.append_assoc, Scan.run_between hopen,
    Scan.run_flatMap_escapeChar, List.append_nil, List.singleton_append, Scan.run_cons hclose]
  rfl

end ControlPlane.Json.Token
