/-
Numerals read back. The digits of a numeral are read one by one, and their value is the number that was written
(`mapM_toDigits`); the first digit of a positive number is not zero.
-/
import ControlPlane.Numeral

namespace ControlPlane.Numeral

theorem digit?_digitChar : ∀ d < 10, digit? (Nat.digitChar d) = some d := by decide

theorem hexDigit?_digitChar : ∀ d < 16, hexDigit? (Nat.digitChar d) = some d := by decide

theorem mapM_toDigits {base : Nat} {read : Char → Option Nat} (hb : 1 < base)
    (hread : ∀ d < base, read (Nat.digitChar d) = some d) (n : Nat) :
    ∃ ds, (Nat.toDigits base n).mapM read = some ds ∧ value base ds = n := by
  induction n using Nat.base_induction base hb with
  | single d hd =>
    refine ⟨[d], ?_, by simp [value]⟩
    rw [Nat.toDigits_of_lt_base hd, List.mapM_cons, hread d hd]
    rfl
  | digit n d hd hn ih =>
    obtain ⟨ds, hds, hvalue⟩ := ih
    refine ⟨ds ++ [d], ?_, ?_⟩
    · rw [← Nat.toDigits_append_toDigits hb hn hd, Nat.toDigits_of_lt_base hd, List.mapM_append, hds, List.mapM_cons,
        hread d hd]
      rfl
    · rw [value_append, hvalue, Nat.mul_comm]

theorem ofDecimal?_toDigits (n : Nat) : ofDecimal? (Nat.toDigits 10 n) = some n := by
  obtain ⟨ds, hds, rfl⟩ := mapM_toDigits (by decide) digit?_digitChar n
  simp [ofDecimal?, hds]

theorem ofHex?_toDigits (n : Nat) : ofHex? (Nat.toDigits 16 n) = some n := by
  obtain ⟨ds, hds, rfl⟩ := mapM_toDigits (by decide) hexDigit?_digitChar n
  simp [ofHex?, hds]

/-- Digits that can be read back belong to one number. -/
theorem toDigits_injective {base : Nat} {read : Char → Option Nat} (hb : 1 < base)
    (hread : ∀ d < base, read (Nat.digitChar d) = some d) {m n : Nat} (h : Nat.toDigits base m = Nat.toDigits base n) :
    m = n := by
  obtain ⟨ds, hds, rfl⟩ := mapM_toDigits hb hread m
  obtain ⟨ds', hds', rfl⟩ := mapM_toDigits hb hread n
  rw [h, hds'] at hds
  rw [Option.some.inj hds]

theorem hex_injective {m n : Nat} (h : hex m = hex n) : m = n :=
  toDigits_injective (by decide) hexDigit?_digitChar (String.ofList_injective h)

theorem decimal_injective {m n : Nat} (h : decimal m = decimal n) : m = n :=
  toDigits_injective (by decide) digit?_digitChar (String.ofList_injective h)

theorem toList_decimal (n : Nat) : (decimal n).toList = Nat.toDigits 10 n :=
  String.toList_ofList

theorem head?_toDigits {base n : Nat} (hb : 1 < base) (hn : n ≠ 0) : (Nat.toDigits base n).head? ≠ some '0' := by
  induction n using Nat.base_induction base hb with
  | single d hd => simpa [Nat.toDigits_of_lt_base hd] using hn
  | digit n d hd hpos ih =>
    have ih := ih (by omega)
    obtain ⟨c, cs, hcs⟩ := List.exists_cons_of_ne_nil (Nat.toDigits_ne_nil (n := n) (b := base))
    rw [← Nat.toDigits_append_toDigits hb hpos hd, hcs]
    rwa [hcs] at ih

theorem digitChar_of_mem_toDigits {base n : Nat} (hb : 1 < base) {c : Char} (hc : c ∈ Nat.toDigits base n) :
    ∃ d < base, c = Nat.digitChar d := by
  induction n using Nat.base_induction base hb with
  | single d hd => exact ⟨d, hd, by simpa [Nat.toDigits_of_lt_base hd] using hc⟩
  | digit n d hd hpos ih =>
    rw [← Nat.toDigits_append_toDigits hb hpos hd, List.mem_append] at hc
    rcases hc with hc | hc
    · exact ih hc
    · exact ⟨d, hd, by simpa [Nat.toDigits_of_lt_base hd] using hc⟩

theorem not_mem_toDigits {base : Nat} (hb : 1 < base) {c : Char} (hc : ∀ d < base, Nat.digitChar d ≠ c) (n : Nat) :
    c ∉ Nat.toDigits base n := by
  intro h
  obtain ⟨d, hd, rfl⟩ := digitChar_of_mem_toDigits hb h
  exact hc d hd rfl

theorem dollar_notMem_decimal (n : Nat) : '$' ∉ (decimal n).toList := by
  rw [toList_decimal]
  exact not_mem_toDigits (by decide) (by decide) n

end ControlPlane.Numeral
