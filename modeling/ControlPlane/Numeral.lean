/-
Numbers in text: decimal and hexadecimal numerals without leading zeros, the digits that a numeral
may hold, and a fixed count of digits in any base, as the bytes of an address are. Reading the fixed
digits back gives the number again (`value_positional`).
-/

namespace ControlPlane.Numeral

/-! ## Written numerals -/

/-- The decimal numeral of a number. -/
def decimal (n : Nat) : String := String.ofList (Nat.toDigits 10 n)

/-- The hexadecimal numeral of a number, in lower case. -/
def hex (n : Nat) : String := String.ofList (Nat.toDigits 16 n)

/-- The hexadecimal numeral, filled up with zeros to at least `width` digits. -/
def hexPadded (width n : Nat) : String :=
  String.ofList ((Nat.toDigits 16 n).leftpad width '0')

/-! ## Reading -/

/-- The value of a decimal digit. -/
def digit? (c : Char) : Option Nat :=
  if '0' ≤ c ∧ c ≤ '9' then some (c.toNat - '0'.toNat) else none

/-- The value of a hexadecimal digit of either case. -/
def hexDigit? (c : Char) : Option Nat :=
  if '0' ≤ c ∧ c ≤ '9' then some (c.toNat - '0'.toNat)
  else if 'a' ≤ c ∧ c ≤ 'f' then some (c.toNat - 'a'.toNat + 10)
  else if 'A' ≤ c ∧ c ≤ 'F' then some (c.toNat - 'A'.toNat + 10)
  else none

/-- The number with the given digits, the first one being the highest. -/
def value (base : Nat) (digits : List Nat) : Nat :=
  digits.foldl (fun high d => high * base + d) 0

/-- The number that a non-empty text of decimal digits denotes. -/
def ofDecimal? (text : List Char) : Option Nat :=
  if text.isEmpty then none else (text.mapM digit?).map (value 10)

/-- The number that a non-empty text of hexadecimal digits denotes. -/
def ofHex? (text : List Char) : Option Nat :=
  if text.isEmpty then none else (text.mapM hexDigit?).map (value 16)

/-- The number that a decimal numeral with an optional plus sign denotes, if it is below `bound`. -/
def unsigned? (bound : Nat) (text : List Char) : Option Nat :=
  let digits := match text with
    | '+' :: rest => rest
    | _ => text
  (ofDecimal? digits).filter (· < bound)

/-! ## A fixed count of digits -/

/-- The lowest `count` digits of a number, the highest of them first. -/
def positional (base : Nat) : (count n : Nat) → List Nat
  | 0, _ => []
  | count + 1, n => positional base count (n / base) ++ [n % base]

@[simp] theorem length_positional (base : Nat) : ∀ count n, (positional base count n).length = count
  | 0, _ => rfl
  | count + 1, n => by simp [positional, length_positional base count]

theorem value_append (base : Nat) (ds : List Nat) (d : Nat) :
    value base (ds ++ [d]) = value base ds * base + d := by
  simp [value]

/-- The fixed digits denote the number again, up to a multiple of what they can hold. -/
theorem value_positional (base : Nat) : ∀ count n,
    value base (positional base count n) = n % Nat.pow base count
  | 0, n => by simp [positional, value, Nat.mod_one]
  | count + 1, n => by
    show _ = n % (Nat.pow base count * base)
    rw [positional, value_append, value_positional base count, Nat.mul_comm, Nat.mul_comm (Nat.pow base count) base,
      Nat.mod_mul]
    omega

theorem lt_of_mem_positional {base : Nat} (hb : 0 < base) : ∀ {count n d : Nat},
    d ∈ positional base count n → d < base
  | 0, _, _, h => by simp [positional] at h
  | count + 1, n, d, h => by
    rcases List.mem_append.1 h with h | h
    · exact lt_of_mem_positional hb h
    · rw [List.mem_singleton.1 h]; exact Nat.mod_lt _ hb

end ControlPlane.Numeral
