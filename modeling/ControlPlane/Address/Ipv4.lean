/-
IPv4 addresses: 32 bits, written as four decimal octets with dots between them. An octet has at most
three digits and no leading zero.
-/
import ControlPlane.Json.Form
import ControlPlane.Numeral
import ControlPlane.Text.Split

namespace ControlPlane

/-- An IPv4 address. -/
abbrev Ipv4Addr := BitVec 32

namespace Ipv4Addr

/-- The four octets of the address. -/
def octets (a : Ipv4Addr) : List Nat := Numeral.positional 256 4 a.toNat

/-- The address with the given octets. -/
def ofOctets (octets : List Nat) : Ipv4Addr := BitVec.ofNat 32 (Numeral.value 256 octets)

theorem ofOctets_octets (a : Ipv4Addr) : ofOctets (octets a) = a := by
  rw [ofOctets, octets, Numeral.value_positional, Nat.pow_eq]
  apply BitVec.eq_of_toNat_eq
  simp only [BitVec.toNat_ofNat]
  have := a.isLt
  omega

/-- The characters of the address. -/
def chars (a : Ipv4Addr) : List Char :=
  ['.'].intercalate (a.octets.map (Nat.toDigits 10))

def describe (a : Ipv4Addr) : String := String.ofList a.chars

/-- The octet that a text denotes. -/
def octet? (text : List Char) : Option Nat :=
  if text.length ≤ 3 ∧ (text.length = 1 ∨ text.head? ≠ some '0') then
    (Numeral.ofDecimal? text).filter (· < 256)
  else none

/-- The octets that a text denotes. -/
def octetsOfChars? (text : List Char) : Option (List Nat) :=
  ((Text.split '.' [] text).mapM octet?).filter (·.length = 4)

/-- The address that a text denotes. -/
def ofText? (text : String) : Option Ipv4Addr :=
  (octetsOfChars? text.toList).map ofOctets

end Ipv4Addr

instance : JsonForm Ipv4Addr where
  toJson a := .string a.describe
  ofJson?
    | .string s => Ipv4Addr.ofText? s
    | _ => none

end ControlPlane
