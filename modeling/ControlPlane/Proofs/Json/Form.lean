/-
Lawful JSON forms: every value is written as plain JSON and read back as itself (`LawfulJsonForm`). For a record
this follows from its columns, which are found again under their names as long as no two names are the same
(`bind_columns?`); for a map, from the order of its keys (`SortedMap.ofList_entries`).
-/
import ControlPlane.Json.Text
import ControlPlane.Proofs.Json.Text

namespace ControlPlane

/-- A JSON form in which every value is read back from what is written. -/
class LawfulJsonForm (α : Type) [JsonForm α] : Prop where
  plain (a : α) : (toJson a).Plain
  ofJson?_toJson (a : α) : ofJson? (toJson a) = some a

export LawfulJsonForm (ofJson?_toJson)

attribute [simp] LawfulJsonForm.plain ofJson?_toJson

namespace Json

/-- The pretty text of a value holds the value. -/
theorem decode?_encodePretty {α : Type} [JsonForm α] [LawfulJsonForm α] (a : α) :
    decode? (encodePretty a) = some a := by
  rw [decode?, encodePretty, parse?_pretty (LawfulJsonForm.plain a), Option.bind_some, ofJson?_toJson]

/-- The text of a value on one line holds the value. -/
theorem decode?_encode {α : Type} [JsonForm α] [LawfulJsonForm α] (a : α) : decode? (encode a) = some a := by
  rw [decode?, encode, parse?_compact (LawfulJsonForm.plain a), Option.bind_some, ofJson?_toJson]

/-! ## Records and variants -/

variable {α : Type} {members : List (String × Json)}

theorem filter_name_of_mem {m : String × Json} (hnodup : (members.map Prod.fst).Nodup) (hm : m ∈ members) :
    members.filter (·.1 = m.1) = [m] := by
  induction members with
  | nil => cases hm
  | cons m' members ih =>
    rw [List.map_cons, List.nodup_cons] at hnodup
    rcases List.mem_cons.1 hm with rfl | hm
    · have hothers : members.filter (·.1 = m.1) = [] :=
        List.filter_eq_nil_iff.2 fun m' hm' h => hnodup.1 (List.mem_map.2 ⟨m', hm', by simpa using h⟩)
      simp [hothers]
    · have hne : m'.1 ≠ m.1 := fun h => hnodup.1 (List.mem_map.2 ⟨m, hm, h.symm⟩)
      simp [hne, ih hnodup.2 hm]

theorem columns?_object (hnodup : (members.map Prod.fst).Nodup) :
    columns? (members.map Prod.fst) (.object members) = some (members.map fun m => some m.2) := by
  have hcolumns : ∀ ms, ms ⊆ members →
      (ms.map Prod.fst).mapM (memberOnce? members) = some (ms.map fun m => some m.2) := by
    intro ms hms
    induction ms with
    | nil => rfl
    | cons m ms ih =>
      rw [List.cons_subset] at hms
      rw [List.map_cons, List.mapM_cons, memberOnce?, filter_name_of_mem hnodup hms.1, ih hms.2]
      rfl
  exact hcolumns members (List.Subset.refl _)

theorem bind_columns? (k : List (Option Json) → Option α) (hnodup : (members.map Prod.fst).Nodup) :
    (columns? (members.map Prod.fst) (.object members) >>= k) = k (members.map fun m => some m.2) := by
  rw [columns?_object hnodup]
  rfl

theorem bind_exactColumns? (k : List (Option Json) → Option α) (hnodup : (members.map Prod.fst).Nodup) :
    (exactColumns? (members.map Prod.fst) (.object members) >>= k) = k (members.map fun m => some m.2) := by
  have hall : members.all (fun m => (members.map Prod.fst).contains m.1) = true := by
    rw [List.all_eq_true]
    intro m hm
    exact List.contains_iff_mem.2 (List.mem_map_of_mem hm)
  rw [exactColumns?, if_pos hall, bind_columns? k hnodup]

@[simp] theorem required?_some [JsonForm α] (v : Json) : (required? (some v) : Option α) = ofJson? v := rfl

@[simp] theorem orDefault?_some [JsonForm α] (a : α) (v : Json) : orDefault? a (some v) = ofJson? v := rfl

theorem below?_natural {bound n : Nat} (h : n < bound) : below? bound (.natural n) = some ⟨n, h⟩ :=
  dif_pos h

end Json

/-! ## Basic types -/

instance : LawfulJsonForm String where
  plain s := .string s
  ofJson?_toJson _ := rfl

instance : LawfulJsonForm Bool where
  plain b := .bool b
  ofJson?_toJson _ := rfl

instance : LawfulJsonForm UInt8 where
  plain n := .natural n.toNat
  ofJson?_toJson n := by
    show (Json.below? _ (.natural n.toNat)).map UInt8.ofFin = _
    rw [Json.below?_natural n.toNat_lt]
    rfl

instance : LawfulJsonForm UInt16 where
  plain n := .natural n.toNat
  ofJson?_toJson n := by
    show (Json.below? _ (.natural n.toNat)).map UInt16.ofFin = _
    rw [Json.below?_natural n.toNat_lt]
    rfl

instance : LawfulJsonForm UInt64 where
  plain n := .natural n.toNat
  ofJson?_toJson n := by
    show (Json.below? _ (.natural n.toNat)).map UInt64.ofFin = _
    rw [Json.below?_natural n.toNat_lt]
    rfl

theorem ofJson?_of_ne_null {α : Type} [JsonForm α] {v : Json} (h : v ≠ .null) :
    (ofJson? v : Option (Option α)) = (ofJson? v).map some := by
  cases v with
  | null => exact absurd rfl h
  | bool _ | natural _ | number _ | string _ | unpaired | array _ | object _ => rfl

variable {α : Type} [JsonForm α] [LawfulJsonForm α]

instance : LawfulJsonForm (List α) where
  plain items := .array (by simp)
  ofJson?_toJson items := mapM_map_eq_some fun a _ => ofJson?_toJson a

/-- A value that is not written as null is told from no value. -/
theorem LawfulJsonForm.option (h : ∀ a : α, toJson a ≠ .null) : LawfulJsonForm (Option α) where
  plain
    | none => .null
    | some a => plain a
  ofJson?_toJson
    | none => rfl
    | some a => by
      show ofJson? (toJson a) = _
      rw [ofJson?_of_ne_null (h a), ofJson?_toJson, Option.map_some]

instance : LawfulJsonForm (SortedMap String α) where
  plain m := .object (List.forall_mem_map.2 fun e _ => LawfulJsonForm.plain e.2)
  ofJson?_toJson m := by
    have hmembers : (m.entries.map fun e => (e.1, toJson e.2)).mapM (fun e => (ofJson? e.2).map (e.1, ·)) =
        some m.entries := mapM_map_eq_some fun e _ => by rw [ofJson?_toJson]; rfl
    show Option.map _ ((m.entries.map fun e => (e.1, toJson e.2)).mapM _) = _
    rw [hmembers, Option.map_some, SortedMap.ofList_entries]

end ControlPlane
