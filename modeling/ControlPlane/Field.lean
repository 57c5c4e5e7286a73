/-
Fields: what a flow entry may ask of one property of a packet. A field has a kind, which is the
property, and asks either for one value of it or, for addresses, for agreement under a mask.
-/
import ControlPlane.Address.Masked
import ControlPlane.Uid

namespace ControlPlane

/-! ## Kinds -/

/-- The properties of a packet that a field can ask about. -/
inductive FieldKind where
  | inPort
  | ethSrc
  | ethDst
  | ethType
  | vlanId
  | vlanPcp
  | ipv4Src
  | ipv4Dst
  | ipv6Src
  | ipv6Dst
  | transportPortSrc
  | transportPortDst
deriving DecidableEq, Repr

namespace FieldKind

/-- The position of the kind in the order of all kinds. -/
def rank : FieldKind → Nat
  | .inPort => 0
  | .ethSrc => 1
  | .ethDst => 2
  | .ethType => 3
  | .vlanId => 4
  | .vlanPcp => 5
  | .ipv4Src => 6
  | .ipv4Dst => 7
  | .ipv6Src => 8
  | .ipv6Dst => 9
  | .transportPortSrc => 10
  | .transportPortDst => 11

def name : FieldKind → String
  | .inPort => "InPort"
  | .ethSrc => "EthSrc"
  | .ethDst => "EthDst"
  | .ethType => "EthType"
  | .vlanId => "VlanId"
  | .vlanPcp => "VlanPcp"
  | .ipv4Src => "Ipv4Src"
  | .ipv4Dst => "Ipv4Dst"
  | .ipv6Src => "Ipv6Src"
  | .ipv6Dst => "Ipv6Dst"
  | .transportPortSrc => "TransportPortSrc"
  | .transportPortDst => "TransportPortDst"

end FieldKind

/-- The Ethernet type of IPv4 packets. -/
def ethTypeIpv4 : UInt16 := 0x0800

/-- The Ethernet type of IPv6 packets. -/
def ethTypeIpv6 : UInt16 := 0x86DD

/-- The Ethernet type of ARP packets. -/
def ethTypeArp : UInt16 := 0x0806

/-! ## Fields -/

/-- What is asked of one property of a packet. -/
inductive Field where
  | inPort (port : Uid)
  | ethSrc (addr : Masked 48)
  | ethDst (addr : Masked 48)
  | ethType (type : UInt16)
  | vlanId (id : UInt16)
  | vlanPcp (priority : UInt8)
  | ipv4Src (addr : Masked 32)
  | ipv4Dst (addr : Masked 32)
  | ipv6Src (addr : Masked 128)
  | ipv6Dst (addr : Masked 128)
  | transportPortSrc (port : UInt16)
  | transportPortDst (port : UInt16)
deriving DecidableEq, Repr

namespace Field

def kind : Field → FieldKind
  | .inPort _ => .inPort
  | .ethSrc _ => .ethSrc
  | .ethDst _ => .ethDst
  | .ethType _ => .ethType
  | .vlanId _ => .vlanId
  | .vlanPcp _ => .vlanPcp
  | .ipv4Src _ => .ipv4Src
  | .ipv4Dst _ => .ipv4Dst
  | .ipv6Src _ => .ipv6Src
  | .ipv6Dst _ => .ipv6Dst
  | .transportPortSrc _ => .transportPortSrc
  | .transportPortDst _ => .transportPortDst

def sameKind (f g : Field) : Bool := f.kind == g.kind

/-- Both fields ask the same of a packet. -/
def equals : Field → Field → Bool
  | .inPort a, .inPort b => a == b
  | .ethSrc a, .ethSrc b => a.equals b
  | .ethDst a, .ethDst b => a.equals b
  | .ethType a, .ethType b => a == b
  | .vlanId a, .vlanId b => a == b
  | .vlanPcp a, .vlanPcp b => a == b
  | .ipv4Src a, .ipv4Src b => a.equals b
  | .ipv4Dst a, .ipv4Dst b => a.equals b
  | .ipv6Src a, .ipv6Src b => a.equals b
  | .ipv6Dst a, .ipv6Dst b => a.equals b
  | .transportPortSrc a, .transportPortSrc b => a == b
  | .transportPortDst a, .transportPortDst b => a == b
  | _, _ => false

/-- Whatever the second field asks for, the first one asks for no more: under masks the bits of the
first mask decide, and other fields have to be equal. -/
def subsumes : Field → Field → Bool
  | .ethSrc a, .ethSrc b => a.subsumes b
  | .ethDst a, .ethDst b => a.subsumes b
  | .ipv4Src a, .ipv4Src b => a.subsumes b
  | .ipv4Dst a, .ipv4Dst b => a.subsumes b
  | .ipv6Src a, .ipv6Src b => a.subsumes b
  | .ipv6Dst a, .ipv6Dst b => a.subsumes b
  | f, g => f.equals g

def describe : Field → String
  | .inPort p => "in_port=" ++ p.text
  | .ethSrc m => "eth_src=" ++ m.describe
  | .ethDst m => "eth_dst=" ++ m.describe
  | .ethType t => "eth_type=0x" ++ Numeral.hexPadded 4 t.toNat
  | .vlanId v => "vlan_id=" ++ Numeral.decimal v.toNat
  | .vlanPcp v => "vlan_pcp=" ++ Numeral.decimal v.toNat
  | .ipv4Src m => "ipv4_src=" ++ m.describe
  | .ipv4Dst m => "ipv4_dst=" ++ m.describe
  | .ipv6Src m => "ipv6_src=" ++ m.describe
  | .ipv6Dst m => "ipv6_dst=" ++ m.describe
  | .transportPortSrc p => "tp_src=" ++ Numeral.decimal p.toNat
  | .transportPortDst p => "tp_dst=" ++ Numeral.decimal p.toNat

end Field

instance : JsonForm Field where
  toJson f := Json.tagged f.kind.name <| match f with
    | .inPort p => toJson p
    | .ethSrc m | .ethDst m => toJson m
    | .ipv4Src m | .ipv4Dst m => toJson m
    | .ipv6Src m | .ipv6Dst m => toJson m
    | .ethType n | .vlanId n | .transportPortSrc n | .transportPortDst n => toJson n
    | .vlanPcp n => toJson n
  ofJson? v :=
    match v.variant? with
    | some ("InPort", some c) => (ofJson? c).map .inPort
    | some ("EthSrc", some c) => (ofJson? c).map .ethSrc
    | some ("EthDst", some c) => (ofJson? c).map .ethDst
    | some ("EthType", some c) => (ofJson? c).map .ethType
    | some ("VlanId", some c) => (ofJson? c).map .vlanId
    | some ("VlanPcp", some c) => (ofJson? c).map .vlanPcp
    | some ("Ipv4Src", some c) => (ofJson? c).map .ipv4Src
    | some ("Ipv4Dst", some c) => (ofJson? c).map .ipv4Dst
    | some ("Ipv6Src", some c) => (ofJson? c).map .ipv6Src
    | some ("Ipv6Dst", some c) => (ofJson? c).map .ipv6Dst
    | some ("TransportPortSrc", some c) => (ofJson? c).map .transportPortSrc
    | some ("TransportPortDst", some c) => (ofJson? c).map .transportPortDst
    | _ => none

end ControlPlane
