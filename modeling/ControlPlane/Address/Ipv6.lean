/-
IPv6 addresses: 128 bits, written as eight hexadecimal groups with colons between them. The first of
the longest runs of at least two zero groups is written as `::`, and an address that embeds an IPv4
address after `::ffff:` ends in dotted octets.

Reading is more liberal than writing: `::` may stand for any one run of zero groups, groups may have
leading zeros up to four digits, and the last two groups may always be dotted.
-/
import ControlPlane.Address.Ipv4

namespace ControlPlane

/-- An IPv6 address. -/
abbrev Ipv6Addr := BitVec 128

namespace Ipv6Addr

/-- The eight groups of the address. -/
def groups (a : Ipv6Addr) : List Nat := Numeral.positional 65536 8 a.toNat

/-- The address with the given groups. -/
def ofGroups (groups : List Nat) : Ipv6Addr := BitVec.ofNat 128 (Numeral.value 65536 groups)

theorem ofGroups_groups (a : Ipv6Addr) : ofGroups (groups a) = a := by
  rw [ofGroups, groups, Numeral.value_positional, Nat.pow_eq]
  apply BitVec.eq_of_toNat_eq
  simp only [BitVec.toNat_ofNat]
  have := a.isLt
  omega

/-! ## Writing -/

/-- The number of zero groups that follow each other from a position on. -/
def zerosFrom (groups : List Nat) (start : Nat) : Nat :=
  ((groups.drop start).takeWhile (· = 0)).length

/-- Position and length of the first of the longest runs of zero groups. -/
def longestZeros (groups : List Nat) : Nat × Nat :=
  (List.range groups.length).foldl
    (fun best start =>
      if best.2 < zerosFrom groups start then (start, zerosFrom groups start) else best)
    (0, 0)

/-- The characters of a sequence of groups. -/
def groupChars (groups : List Nat) : List Char :=
  [':'].intercalate (groups.map (Nat.toDigits 16))

/-- The characters of the address. -/
def chars (a : Ipv6Addr) : List Char :=
  let gs := a.groups
  if gs.take 6 = [0, 0, 0, 0, 0, 0xffff] then
    "::ffff:".toList ++ Ipv4Addr.chars (BitVec.ofNat 32 a.toNat)
  else
    let (start, count) := longestZeros gs
    if count > 1 then
      groupChars (gs.take start) ++ [':', ':'] ++ groupChars (gs.drop (start + count))
    else groupChars gs

def describe (a : Ipv6Addr) : String := String.ofList a.chars

/-! ## Reading -/

/-- The group that a text denotes. -/
def group? (text : List Char) : Option Nat :=
  if text.length ≤ 4 then Numeral.ofHex? text else none

/-- The groups that a text without dotted octets denotes. -/
def plainGroups? (text : List Char) : Option (List Nat) :=
  if text.isEmpty then some [] else (Text.split ':' [] text).mapM group?

/-- The groups that a text denotes of which the last piece may be dotted. -/
def mixedGroups? (text : List Char) : Option (List Nat) :=
  if text.isEmpty then some [] else
    let pieces := Text.split ':' [] text
    match pieces.getLast? with
    | none => some []
    | some last =>
      if last.contains '.' then
        match Ipv4Addr.octetsOfChars? last, pieces.dropLast.mapM group? with
        | some [a, b, c, d], some gs => some (gs ++ [a * 256 + b, c * 256 + d])
        | _, _ => none
      else pieces.mapM group?

/-- The eight groups that a text denotes. -/
def groupsOfChars? (text : List Char) : Option (List Nat) :=
  match Text.cut [':', ':'] text with
  | none => (mixedGroups? text).filter (·.length = 8)
  | some (before, after) =>
    match plainGroups? before, mixedGroups? after with
    | some high, some low =>
      if high.length + low.length ≤ 7 then
        some (high ++ List.replicate (8 - high.length - low.length) 0 ++ low)
      else none
    | _, _ => none

/-- The address that a text denotes. -/
def ofText? (text : String) : Option Ipv6Addr :=
  (groupsOfChars? text.toList).map ofGroups

end Ipv6Addr

instance : JsonForm Ipv6Addr where
  toJson a := .string a.describe
  ofJson?
    | .string s => Ipv6Addr.ofText? s
    | _ => none

end ControlPlane
