/-
What fields and matches mean. A packet gives some kinds a value; a field accepts the packets whose
value of its kind is the one it asks for, or agrees with it under the mask, and a match accepts the
packets that all of its fields accept.
-/
import ControlPlane.Match

namespace ControlPlane

/-- The values of a kind of field. -/
def FieldKind.Value : FieldKind → Type
  | .inPort => Uid
  | .ethSrc | .ethDst => BitVec 48
  | .ethType | .vlanId | .transportPortSrc | .transportPortDst => UInt16
  | .vlanPcp => UInt8
  | .ipv4Src | .ipv4Dst => BitVec 32
  | .ipv6Src | .ipv6Dst => BitVec 128

/-- A packet: a value or no value for each kind of field. -/
structure Packet where
  value? : (kind : FieldKind) → Option kind.Value

/-- The packet has a value of the field's kind, and it is one that the field asks for. -/
def Field.accepts (p : Packet) : Field → Prop
  | .inPort port => p.value? .inPort = some port
  | .ethSrc m => ∃ addr, p.value? .ethSrc = some addr ∧ m.accepts addr
  | .ethDst m => ∃ addr, p.value? .ethDst = some addr ∧ m.accepts addr
  | .ethType type => p.value? .ethType = some type
  | .vlanId id => p.value? .vlanId = some id
  | .vlanPcp priority => p.value? .vlanPcp = some priority
  | .ipv4Src m => ∃ addr, p.value? .ipv4Src = some addr ∧ m.accepts addr
  | .ipv4Dst m => ∃ addr, p.value? .ipv4Dst = some addr ∧ m.accepts addr
  | .ipv6Src m => ∃ addr, p.value? .ipv6Src = some addr ∧ m.accepts addr
  | .ipv6Dst m => ∃ addr, p.value? .ipv6Dst = some addr ∧ m.accepts addr
  | .transportPortSrc port => p.value? .transportPortSrc = some port
  | .transportPortDst port => p.value? .transportPortDst = some port

/-- Every field of the match accepts the packet. -/
def Match.accepts (p : Packet) (m : Match) : Prop := ∀ f ∈ m.fields, f.accepts p

end ControlPlane
