/-
Addresses read back from their texts. An IPv4 address is four octets between dots. An IPv6 address is written in
one of three ways, and each of them gives all eight groups again: what a run of zero groups is cut out of is
recovered from its length (`longestZeros_eq_append`), and the two groups of dotted octets from the octets.
-/
import Mathlib.Data.List.TakeWhile
import ControlPlane.Address.Ipv6
import ControlPlane.Proofs.Numeral
import ControlPlane.Proofs.Outcome
import ControlPlane.Proofs.Text.Split

namespace ControlPlane

/-! ## Four octets -/

namespace Ipv4Addr

theorem octets_lt {a : Ipv4Addr} {n : Nat} (h : n ∈ a.octets) : n < 256 :=
  Numeral.lt_of_mem_positional (by decide) h

theorem octet?_toDigits {n : Nat} (hn : n < 256) : octet? (Nat.toDigits 10 n) = some n := by
  have hlen : (Nat.toDigits 10 n).length ≤ 3 := (Nat.length_toDigits_le_iff (by decide) (by decide)).2 (by omega)
  have hhead : (Nat.toDigits 10 n).length = 1 ∨ (Nat.toDigits 10 n).head? ≠ some '0' := by
    by_cases h0 : n = 0
    · subst h0; exact .inl rfl
    · exact .inr (Numeral.head?_toDigits (by decide) h0)
  rw [octet?, if_pos ⟨hlen, hhead⟩, Numeral.ofDecimal?_toDigits]
  simp [hn]

theorem not_mem_toDigits (n : Nat) : ':' ∉ Nat.toDigits 10 n ∧ '.' ∉ Nat.toDigits 10 n :=
  ⟨Numeral.not_mem_toDigits (by decide) (by decide) n, Numeral.not_mem_toDigits (by decide) (by decide) n⟩

theorem octetsOfChars?_chars (a : Ipv4Addr) : octetsOfChars? a.chars = some a.octets := by
  rw [octetsOfChars?, chars, Text.split_intercalate (by simp [octets, Numeral.positional]) _,
    mapM_map_eq_some fun n hn => octet?_toDigits (octets_lt hn)]
  · simp [octets]
  · exact List.forall_mem_map.2 fun n _ => (not_mem_toDigits n).2

theorem ofText?_describe (a : Ipv4Addr) : ofText? a.describe = some a := by
  rw [ofText?, describe, String.toList_ofList, octetsOfChars?_chars, Option.map_some, ofOctets_octets]

/-- The octets make up the upper and the lower half of the address. -/
theorem exists_octets (a : Ipv4Addr) : ∃ b c d e, a.octets = [b, c, d, e] ∧ b * 256 + c = a.toNat / 65536 ∧
    d * 256 + e = a.toNat % 65536 := by
  obtain ⟨n, hn⟩ := a
  refine ⟨_, _, _, _, rfl, ?_, ?_⟩
  · show n / 256 / 256 / 256 % 256 * 256 + n / 256 / 256 % 256 = n / 65536
    omega
  · show n / 256 % 256 * 256 + n % 256 = n % 65536
    omega

theorem colon_not_mem_chars (a : Ipv4Addr) : ':' ∉ a.chars := by
  simp [chars, octets, Numeral.positional, not_mem_toDigits]

theorem dot_mem_chars (a : Ipv4Addr) : '.' ∈ a.chars := by
  simp [chars, octets, Numeral.positional]

end Ipv4Addr

/-! ## Eight groups -/

namespace Ipv6Addr

variable {gs : List Nat}

theorem groups_lt {a : Ipv6Addr} {n : Nat} (h : n ∈ a.groups) : n < 65536 :=
  Numeral.lt_of_mem_positional (by decide) h

theorem group?_toDigits {n : Nat} (hn : n < 65536) : group? (Nat.toDigits 16 n) = some n := by
  have hlen : (Nat.toDigits 16 n).length ≤ 4 := (Nat.length_toDigits_le_iff (by decide) (by decide)).2 (by omega)
  rw [group?, if_pos hlen, Numeral.ofHex?_toDigits]

theorem not_mem_toDigits (n : Nat) : ':' ∉ Nat.toDigits 16 n ∧ '.' ∉ Nat.toDigits 16 n :=
  ⟨Numeral.not_mem_toDigits (by decide) (by decide) n, Numeral.not_mem_toDigits (by decide) (by decide) n⟩

theorem mem_pieces {piece : List Char} (h : piece ∈ gs.map (Nat.toDigits 16)) :
    piece ≠ [] ∧ ':' ∉ piece ∧ '.' ∉ piece := by
  obtain ⟨n, -, rfl⟩ := List.mem_map.1 h
  exact ⟨Nat.toDigits_ne_nil, not_mem_toDigits n⟩

theorem split_groupChars (hne : gs ≠ []) : Text.split ':' [] (groupChars gs) = gs.map (Nat.toDigits 16) :=
  Text.split_intercalate (by simpa using hne) fun _ h => (mem_pieces h).2.1

theorem isEmpty_groupChars (hne : gs ≠ []) : (groupChars gs).isEmpty = false := by
  cases gs with
  | nil => exact absurd rfl hne
  | cons g gs => cases gs <;> simp [groupChars, Nat.toDigits_ne_nil]

theorem plainGroups?_groupChars (h : ∀ g ∈ gs, g < 65536) : plainGroups? (groupChars gs) = some gs := by
  by_cases hne : gs = []
  · subst hne; rfl
  · rw [plainGroups?, isEmpty_groupChars hne, split_groupChars hne]
    exact mapM_map_eq_some fun g hg => group?_toDigits (h g hg)

theorem mixedGroups?_groupChars (h : ∀ g ∈ gs, g < 65536) : mixedGroups? (groupChars gs) = some gs := by
  by_cases hne : gs = []
  · subst hne; rfl
  · have hlast : (gs.map (Nat.toDigits 16)).getLast? = some ((gs.map (Nat.toDigits 16)).getLast (by simpa using hne)) :=
      List.getLast?_eq_some_getLast _
    have hdot : ((gs.map (Nat.toDigits 16)).getLast (by simpa using hne)).contains '.' = false := by
      rw [List.contains_eq_mem, decide_eq_false_iff_not]
      exact (mem_pieces (List.getLast_mem _)).2.2
    rw [mixedGroups?, isEmpty_groupChars hne, split_groupChars hne]
    simp only [hlast, hdot, Bool.false_eq_true, if_false]
    exact mapM_map_eq_some fun g hg => group?_toDigits (h g hg)

/-! ## Runs of zero groups -/

theorem eq_append_zerosFrom (gs : List Nat) (start : Nat) :
    gs = gs.take start ++ List.replicate (zerosFrom gs start) 0 ++ gs.drop (start + zerosFrom gs start) := by
  have hzeros : (gs.drop start).takeWhile (· = 0) = List.replicate (zerosFrom gs start) 0 := by
    refine List.eq_replicate_of_mem fun g hg => ?_
    simpa using List.mem_takeWhile_imp hg
  have hrest : (gs.drop start).drop (zerosFrom gs start) = (gs.drop start).dropWhile (· = 0) := by
    conv_lhs => rw [← List.takeWhile_append_dropWhile (p := (· = 0)) (l := gs.drop start)]
    exact List.drop_left
  rw [← List.drop_drop, hrest, ← hzeros, List.append_assoc, List.takeWhile_append_dropWhile, List.take_append_drop]

theorem longestZeros_snd (gs : List Nat) :
    (longestZeros gs).2 = 0 ∨ (longestZeros gs).2 = zerosFrom gs (longestZeros gs).1 := by
  unfold longestZeros
  refine List.foldlRecOn (motive := fun best : Nat × Nat => best.2 = 0 ∨ best.2 = zerosFrom gs best.1) _ _ (.inl rfl) ?_
  intro best hbest start _
  split
  · exact .inr rfl
  · exact hbest

theorem longestZeros_eq_append (gs : List Nat) : gs = gs.take (longestZeros gs).1 ++
    List.replicate (longestZeros gs).2 0 ++ gs.drop ((longestZeros gs).1 + (longestZeros gs).2) := by
  rcases longestZeros_snd gs with h | h
  · simp [h]
  · rw [h]; exact eq_append_zerosFrom gs _

/-! ## Reading back -/

theorem cut_groupChars (gs : List Nat) (text : List Char) : Text.cut [':', ':'] (groupChars gs ++ text) =
    (Text.cut [':', ':'] text).map fun p => (groupChars gs ++ p.1, p.2) :=
  Text.cut_doubled_intercalate text fun _ hp => ⟨(mem_pieces hp).1, (mem_pieces hp).2.1⟩

theorem groupsOfChars?_groupChars (h : ∀ g ∈ gs, g < 65536) (hlen : gs.length = 8) :
    groupsOfChars? (groupChars gs) = some gs := by
  have hcut : Text.cut [':', ':'] (groupChars gs) = none := by
    rw [← List.append_nil (groupChars gs), cut_groupChars]
    rfl
  rw [groupsOfChars?, hcut]
  show (mixedGroups? (groupChars gs)).filter _ = _
  rw [mixedGroups?_groupChars h]
  simp [hlen]

theorem groupsOfChars?_compressed {high low : List Nat} (count : Nat) (hhigh : ∀ g ∈ high, g < 65536)
    (hlow : ∀ g ∈ low, g < 65536) (hlen : high.length + count + low.length = 8) (hcount : 0 < count) :
    groupsOfChars? (groupChars high ++ [':', ':'] ++ groupChars low) =
      some (high ++ List.replicate count 0 ++ low) := by
  have hcut : Text.cut [':', ':'] (groupChars high ++ [':', ':'] ++ groupChars low) =
      some (groupChars high, groupChars low) := by
    rw [List.append_assoc, cut_groupChars, Text.cut_self, Option.map_some, List.append_nil]
  have hzeros : 8 - high.length - low.length = count := by omega
  simp only [groupsOfChars?, hcut, plainGroups?_groupChars hhigh, mixedGroups?_groupChars hlow, hzeros]
  rw [if_pos (by omega)]

theorem groupsOfChars?_mapped (a : Ipv4Addr) : groupsOfChars? ("::ffff:".toList ++ a.chars) =
    some [0, 0, 0, 0, 0, 0xffff, a.toNat / 65536, a.toNat % 65536] := by
  have hffff : ':' ∉ "ffff".toList := by decide
  have htext : "::ffff:".toList ++ a.chars = [':', ':'] ++ ("ffff".toList ++ ':' :: a.chars) := rfl
  have hpieces : Text.split ':' [] ("ffff".toList ++ ':' :: a.chars) = ["ffff".toList, a.chars] := by
    rw [Text.split_append_cons hffff, Text.split_singleton_of_not_mem a.colon_not_mem_chars]
  have hgroups : mixedGroups? ("ffff".toList ++ ':' :: a.chars) =
      some [0xffff, a.toNat / 65536, a.toNat % 65536] := by
    obtain ⟨b, c, d, e, hoctets, hhigh, hlow⟩ := a.exists_octets
    have hgroup : ["ffff".toList].mapM group? = some [0xffff] := by cbv
    rw [mixedGroups?, if_neg (by simp), hpieces, ← hhigh, ← hlow]
    simp only [List.getLast?_cons_cons, List.getLast?_singleton, List.contains_eq_mem, a.dot_mem_chars, decide_true,
      if_true, a.octetsOfChars?_chars, hoctets, List.dropLast_cons_cons, List.dropLast_singleton, hgroup]
    rfl
  have hnone : plainGroups? [] = some [] := rfl
  simp only [htext, groupsOfChars?, Text.cut_self, hnone, hgroups]
  rfl

theorem ofText?_describe (a : Ipv6Addr) : ofText? a.describe = some a := by
  have hlen : a.groups.length = 8 := Numeral.length_positional _ _ _
  rw [ofText?, describe, String.toList_ofList]
  suffices h : groupsOfChars? a.chars = some a.groups by rw [h, Option.map_some, ofGroups_groups]
  unfold chars
  simp only
  split
  · next hmapped =>
    have hdrop : a.groups.drop 6 = [a.toNat / 65536 % 65536, a.toNat % 65536] := by
      simp [groups, Numeral.positional]
    have hhigh : a.toNat % 4294967296 / 65536 = a.toNat / 65536 % 65536 := by omega
    have hlow : a.toNat % 4294967296 % 65536 = a.toNat % 65536 := by omega
    have hlast : (BitVec.ofNat 32 a.toNat).toNat = a.toNat % 4294967296 := rfl
    rw [groupsOfChars?_mapped, hlast, hhigh, hlow, ← List.take_append_drop 6 a.groups,
      hmapped, hdrop]
    rfl
  · have hsplit := longestZeros_eq_append a.groups
    rcases hz : longestZeros a.groups with ⟨start, count⟩
    simp only [hz] at hsplit ⊢
    split
    · have hlen' := congrArg List.length hsplit
      simp only [List.length_append, List.length_replicate] at hlen'
      rw [groupsOfChars?_compressed count _ _ (by omega) (by omega)]
      · rw [← hsplit]
      · exact fun g hg => groups_lt (List.mem_of_mem_take hg)
      · exact fun g hg => groups_lt (List.mem_of_mem_drop hg)
    · exact groupsOfChars?_groupChars (fun g hg => groups_lt hg) hlen

end Ipv6Addr

end ControlPlane
