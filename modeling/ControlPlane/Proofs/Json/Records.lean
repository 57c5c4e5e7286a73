/-
The JSON forms of the types of the library are lawful: addresses, which have a text of their own, the records
that are read column by column, and the variants that are told by their names.
-/
import ControlPlane.Proofs.Address
import ControlPlane.Proofs.Json.Form
import ControlPlane.Path.Tracker
import ControlPlane.Topology.Graph

namespace ControlPlane

open Json

/-! ## Names and addresses -/

instance : LawfulJsonForm Uid where
  plain u := .string u.text
  ofJson?_toJson _ := rfl

instance {α : Type} [JsonForm α] [LawfulJsonForm α] : LawfulJsonForm (SortedMap Uid α) where
  plain m := .object (List.forall_mem_map.2 fun e _ => LawfulJsonForm.plain e.2)
  ofJson?_toJson m := by
    have hmembers : (m.entries.map fun e => (e.1.text, toJson e.2)).mapM
        (fun e => (ofJson? e.2).map (Uid.mk e.1, ·)) = some m.entries :=
      mapM_map_eq_some fun e _ => by rw [ofJson?_toJson]; rfl
    show Option.map _ ((m.entries.map fun e => (e.1.text, toJson e.2)).mapM _) = _
    rw [hmembers, Option.map_some, SortedMap.ofList_entries]

instance : LawfulJsonForm Ipv4Addr where
  plain a := .string a.describe
  ofJson?_toJson a := Ipv4Addr.ofText?_describe a

instance : LawfulJsonForm Ipv6Addr where
  plain a := .string a.describe
  ofJson?_toJson a := Ipv6Addr.ofText?_describe a

instance : LawfulJsonForm MacAddr where
  plain a := .array (List.forall_mem_map.2 fun n _ => .natural n)
  ofJson?_toJson a := by
    have hbyte : ∀ n ∈ a.bytes, (UInt8.ofNat n).toNat = n := fun n hn =>
      UInt8.toNat_ofNat_of_lt (Numeral.lt_of_mem_positional (by decide) hn)
    have hbytes : (a.bytes.map UInt8.ofNat).map UInt8.toNat = a.bytes := by
      rw [List.map_map]
      exact (List.map_congr_left hbyte).trans (List.map_id' _)
    have htoJson : toJson a = toJson (a.bytes.map UInt8.ofNat) := by
      show Json.array (a.bytes.map .natural) = .array ((a.bytes.map UInt8.ofNat).map toJson)
      conv_lhs => rw [← hbytes, List.map_map]
      rfl
    have hlen : (a.bytes.map UInt8.ofNat).length = 6 := by simp [MacAddr.bytes]
    show ((ofJson? (toJson a) : Option (List UInt8)).filter _).map _ = _
    rw [htoJson, ofJson?_toJson]
    simp [hlen, hbytes, MacAddr.ofBytes_bytes]

instance {w : Nat} [JsonForm (BitVec w)] [LawfulJsonForm (BitVec w)] : LawfulJsonForm (Masked w) where
  plain m := .object (by simp)
  ofJson?_toJson m := (bind_columns? _ (by simp)).trans (by simp)

/-! ## Times -/

theorem Duration.carry?_eq (d : Duration) : carry? d.secs.toNat d.nanos.val = some d := by
  have hnanos : d.nanos.val / 1000000000 = 0 := Nat.div_eq_of_lt d.nanos.isLt
  rw [carry?, hnanos]
  simp [d.secs.toNat_lt]

theorem Timestamp.carry?_eq (t : Timestamp) : carry? t.secs.val t.nanos.val = some t := by
  have hnanos : t.nanos.val / 1000000000 = 0 := Nat.div_eq_of_lt t.nanos.isLt
  rw [carry?, hnanos]
  simp

theorem below?_nanos (n : Nanos) :
    ∃ m : Fin UInt32.size, below? UInt32.size (.natural n.val) = some m ∧ m.val = n.val :=
  ⟨_, below?_natural (Nat.lt_trans n.isLt (by decide)), rfl⟩

instance : LawfulJsonForm Duration where
  plain d := .object (by simp [Plain.natural])
  ofJson?_toJson d := by
    obtain ⟨m, hnanos, hm⟩ := below?_nanos d.nanos
    refine (bind_exactColumns? _ (by simp)).trans ?_
    simp [below?_natural d.secs.toNat_lt, hnanos, hm, Duration.carry?_eq]

instance : LawfulJsonForm Timestamp where
  plain d := .object (by simp [Plain.natural])
  ofJson?_toJson d := by
    have hsecs : d.secs.val < UInt64.size := Nat.lt_trans d.secs.isLt (by decide)
    obtain ⟨m, hnanos, hm⟩ := below?_nanos d.nanos
    refine (bind_exactColumns? _ (by simp)).trans ?_
    simp [below?_natural hsecs, hnanos, hm, Timestamp.carry?_eq]

/-! ## Fields and actions -/

instance : LawfulJsonForm Field where
  plain f := by
    cases f <;> exact .object (by simp)
  ofJson?_toJson f := by
    cases f with
    | inPort p | ethSrc m | ethDst m | ethType n | vlanId n | vlanPcp n | ipv4Src m | ipv4Dst m | ipv6Src m
      | ipv6Dst m | transportPortSrc n | transportPortDst n =>
      show Option.map _ (ofJson? (toJson _)) = _
      rw [ofJson?_toJson]
      rfl

instance : LawfulJsonForm Match where
  plain m := .object (by simp)
  ofJson?_toJson m := (bind_columns? _ (by simp)).trans (by simp)

instance : LawfulJsonForm Action where
  plain a := by
    cases a with
    | forward _ | pushVlan _ | writeFields _ => exact .object (by simp)
    | flood p => exact .object (by simpa using Plain.object (by simp))
    | drop | sendToController | popVlan => exact .string _
  ofJson?_toJson a := by
    cases a with
    | forward _ | pushVlan _ | writeFields _ =>
      show Option.map _ (ofJson? (toJson _)) = _
      rw [ofJson?_toJson]
      rfl
    | flood p => exact (bind_columns? _ (by simp)).trans (by simp)
    | drop | sendToController | popVlan => rfl

/-! ## Flow entries, paths and their records -/

instance : LawfulJsonForm FlowEntry where
  plain m := .object (by simp)
  ofJson?_toJson m := (bind_columns? _ (by simp)).trans (by simp)

instance : LawfulJsonForm Pathlet where
  plain p := .object (by simp)
  ofJson?_toJson p := (bind_columns? _ (by simp)).trans (by simp)

instance : LawfulJsonForm Path where
  plain p := .object (by simp)
  ofJson?_toJson p := (bind_columns? _ (by simp)).trans (by simp)

instance : LawfulJsonForm ActorRef where
  plain a := .object (by simp)
  ofJson?_toJson a := (bind_columns? _ (by simp)).trans (by simp)

instance : LawfulJsonForm FlowStatus where
  plain s := .object (by simp)
  ofJson?_toJson s := (bind_columns? _ (by simp)).trans (by simp)

instance : LawfulJsonForm PathRecord where
  plain r := .object (by simp)
  ofJson?_toJson r := (bind_columns? _ (by simp)).trans (by simp)

/-! ## Nodes and links -/

instance : LawfulJsonForm PortState where
  plain s := by cases s <;> exact .string _
  ofJson?_toJson s := by cases s <;> rfl

instance : LawfulJsonForm (Option Uid) := .option (by intro u; simp [toJson])

instance : LawfulJsonForm Port where
  plain p := .object (by simp)
  ofJson?_toJson p := (bind_columns? _ (by simp)).trans (by simp)

instance : LawfulJsonForm Node where
  plain n := .object (by simp)
  ofJson?_toJson n := (bind_columns? _ (by simp)).trans (by simp)

instance : LawfulJsonForm LinkState where
  plain s := by cases s <;> exact .string _
  ofJson?_toJson s := by cases s <;> rfl

instance : LawfulJsonForm Link where
  plain l := .object (by simp)
  ofJson?_toJson l := (bind_columns? _ (by simp)).trans (by simp)

end ControlPlane
