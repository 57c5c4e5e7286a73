/-
Addresses under a mask. Only the bits that the mask sets count, so a masked address stands for the
set of all addresses that agree with it on these bits.
-/
import ControlPlane.Address.Mac
import ControlPlane.Address.Ipv6

namespace ControlPlane

/-- Addresses of a width that have a text. -/
class AddressText (w : Nat) where
  describe : BitVec w → String

instance : AddressText 48 := ⟨MacAddr.describe⟩
instance : AddressText 32 := ⟨Ipv4Addr.describe⟩
instance : AddressText 128 := ⟨Ipv6Addr.describe⟩

/-- An address of which only the bits of the mask count. -/
structure Masked (w : Nat) where
  addr : BitVec w
  mask : BitVec w
deriving DecidableEq, Repr

namespace Masked

variable {w : Nat}

/-- The masks are the same, and the addresses agree under them. -/
def equals (a b : Masked w) : Bool :=
  a.mask == b.mask && a.addr &&& a.mask == b.addr &&& a.mask

/-- The mask of `b` has at least the bits of the mask of `a`, and the addresses agree on those. -/
def subsumes (a b : Masked w) : Bool :=
  b.mask &&& a.mask == a.mask && a.addr &&& a.mask == b.addr &&& a.mask

/-- The address agrees with the masked one. -/
def accepts (a : Masked w) (addr : BitVec w) : Bool :=
  a.addr &&& a.mask == addr &&& a.mask

def describe [AddressText w] (a : Masked w) : String :=
  AddressText.describe a.addr ++ "/" ++ AddressText.describe a.mask

end Masked

instance {w : Nat} [JsonForm (BitVec w)] : JsonForm (Masked w) where
  toJson a := .object [("addr", toJson a.addr), ("mask", toJson a.mask)]
  ofJson? v := do
    let [addr, mask] ← v.columns? ["addr", "mask"] | none
    return ⟨← Json.required? addr, ← Json.required? mask⟩

end ControlPlane
