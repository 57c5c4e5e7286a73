/-
Hardware addresses: 48 bits, shown as six bytes in hexadecimal with colons between them.
-/
import ControlPlane.Json.Form
import ControlPlane.Numeral

namespace ControlPlane

/-- A hardware address. -/
abbrev MacAddr := BitVec 48

namespace MacAddr

/-- The six bytes of the address. -/
def bytes (a : MacAddr) : List Nat := Numeral.positional 256 6 a.toNat

/-- The address with the given bytes. -/
def ofBytes (bytes : List Nat) : MacAddr := BitVec.ofNat 48 (Numeral.value 256 bytes)

def describe (a : MacAddr) : String :=
  ":".intercalate (a.bytes.map (Numeral.hexPadded 2))

theorem ofBytes_bytes (a : MacAddr) : ofBytes (bytes a) = a := by
  rw [ofBytes, bytes, Numeral.value_positional, Nat.pow_eq]
  apply BitVec.eq_of_toNat_eq
  simp only [BitVec.toNat_ofNat]
  have := a.isLt
  omega

end MacAddr

instance : JsonForm MacAddr where
  toJson a := .array (a.bytes.map .natural)
  ofJson? v :=
    ((ofJson? v : Option (List UInt8)).filter (·.length = 6)).map fun bytes =>
      MacAddr.ofBytes (bytes.map UInt8.toNat)

end ControlPlane
