/-
Probabilities as they are given in text and used in draws. A probability is the share of the 64-bit
numbers for which a draw succeeds.

The text is a decimal number, infinity or "not a number". Its value is rounded to the nearest number
with 53 significant bits (and no bit below `2 ^ -1074`), where a tie goes to the even one, before it
is used.
-/
import ControlPlane.Numeral
import ControlPlane.Random.ChaCha

namespace ControlPlane.Random

/-! ## Numbers in text -/

/-- A number as it is used after rounding: a sign, and `mantissa * 2 ^ exponent`. -/
inductive Real where
  | notANumber
  | infinite (negative : Bool)
  | finite (negative : Bool) (mantissa : Nat) (exponent : Int)
deriving DecidableEq, Repr

/-- The quotient rounded to the nearest natural, a tie to the even one. -/
def roundQuotient (numerator denominator : Nat) : Nat :=
  let q := numerator / denominator
  let twice := 2 * (numerator % denominator)
  if twice < denominator then q
  else if denominator < twice then q + 1
  else q + q % 2

/-- The nearest `mantissa * 2 ^ exponent` to a positive quotient. -/
def nearest (numerator denominator : Nat) : Nat × Int :=
  -- the quotient lies between `2 ^ (top - 1)` and `2 ^ (top + 1)`
  let top : Int := (numerator.log2 : Int) - (denominator.log2 : Int)
  let below := if top ≥ 0 then numerator < denominator * Nat.pow 2 top.toNat
    else numerator * Nat.pow 2 (-top).toNat < denominator
  let exponent := max ((if below then top - 1 else top) - 52) (-1074)
  if exponent ≥ 0 then (roundQuotient numerator (denominator * Nat.pow 2 exponent.toNat), exponent)
  else (roundQuotient (numerator * Nat.pow 2 (-exponent).toNat) denominator, exponent)

/-- The number `digits * 10 ^ scale`, rounded. -/
def ofScientific (negative : Bool) (digits : Nat) (scale : Int) : Real :=
  let size : Int := (Nat.toDigits 10 digits).length + scale
  if digits = 0 ∨ size < -330 then .finite negative 0 0
  else if size > 330 then .infinite negative
  else
    let (mantissa, exponent) :=
      if scale ≥ 0 then nearest (digits * Nat.pow 10 scale.toNat) 1
      else nearest digits (Nat.pow 10 (-scale).toNat)
    .finite negative mantissa exponent

/-- The exponent that a text ends with, if it is nothing else. -/
def exponent? (text : List Char) : Option Int :=
  match text with
  | [] => some 0
  | e :: rest =>
    if e = 'e' ∨ e = 'E' then
      match rest with
      | '-' :: digits => (Numeral.ofDecimal? digits).map fun n => -(n : Int)
      | '+' :: digits => (Numeral.ofDecimal? digits).map Int.ofNat
      | digits => (Numeral.ofDecimal? digits).map Int.ofNat
    else none

/-- The number that a text without a sign denotes. -/
def unsignedReal? (negative : Bool) (text : List Char) : Option Real :=
  let word := String.ofList (text.map Char.toLower)
  if word = "nan" then some .notANumber
  else if word = "inf" ∨ word = "infinity" then some (.infinite negative)
  else
    let whole := text.takeWhile Char.isDigit
    let rest := text.dropWhile Char.isDigit
    let (fraction, rest) := match rest with
      | '.' :: after => (after.takeWhile Char.isDigit, after.dropWhile Char.isDigit)
      | _ => ([], rest)
    match Numeral.ofDecimal? (whole ++ fraction), exponent? rest with
    | some digits, some exponent =>
      some (ofScientific negative digits (exponent - fraction.length))
    | _, _ => none

/-- The number that a text denotes. -/
def real? (text : String) : Option Real :=
  match text.toList with
  | '-' :: rest => unsignedReal? true rest
  | '+' :: rest => unsignedReal? false rest
  | rest => unsignedReal? false rest

/-- Whether a number is at most one. -/
def Real.atMostOne : Real → Bool
  | .notANumber => false
  | .infinite negative => negative
  | .finite true _ _ => true
  | .finite false mantissa exponent =>
    if exponent ≥ 0 then mantissa * Nat.pow 2 exponent.toNat ≤ 1 else mantissa ≤ Nat.pow 2 (-exponent).toNat

/-- Whether a number lies between zero and one. -/
def Real.isProbability (r : Real) : Bool :=
  r.atMostOne && match r with
    | .finite true mantissa _ => mantissa == 0
    | .infinite _ => false
    | _ => true

/-! ## Draws -/

/-- The share of `2 ^ 64` equally likely cases in which a draw succeeds. -/
structure Probability where
  cases : Nat
deriving DecidableEq, Repr

/-- The number of all cases. -/
def allCases : Nat := UInt64.size

/-- The probability nearest to a number; what is not a number counts as zero. -/
def Probability.ofReal : Real → Probability
  | .notANumber => ⟨0⟩
  | .infinite negative => ⟨if negative then 0 else allCases⟩
  | .finite true _ _ => ⟨0⟩
  | .finite false mantissa exponent =>
    ⟨if exponent ≥ 0 then min allCases (mantissa * Nat.pow 2 exponent.toNat * allCases)
      else min allCases (mantissa * allCases / Nat.pow 2 (-exponent).toNat)⟩

/-- Draws whether something happens; what is certain needs no random number. -/
def Stream.draw (s : Stream) (p : Probability) : Bool × Stream :=
  if p.cases = allCases then (true, s)
  else
    let (n, s) := s.next
    (n.toNat < p.cases, s)

end ControlPlane.Random
