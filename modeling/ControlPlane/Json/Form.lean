/-
The JSON form of a type: how its values are written (`toJson`) and which JSON values are read as one
(`ofJson?`). Here are the shapes that the forms of the library are built from:

* a record is written as an object with all of its columns, and is read from an object, in which
  unknown members are skipped and no column may be repeated, or from an array of its columns in
  order, in which columns at the end may be missing;
* a variant without content is written as its name, and is also read from an object with that name
  and null; a variant with content is an object with one member;
* a map is an object, of which the last member with a name counts.
-/
import ControlPlane.Json.Value
import ControlPlane.SortedMap

namespace ControlPlane

/-- The JSON form of a type. -/
class JsonForm (α : Type) where
  toJson : α → Json
  ofJson? : Json → Option α

export JsonForm (toJson ofJson?)

namespace Json

/-! ## Records -/

/-- The member with a name: `none` inside if there is none, and `none` if it is repeated. -/
def memberOnce? (members : List (String × Json)) (name : String) : Option (Option Json) :=
  match members.filter (·.1 = name) with
  | [] => some none
  | [m] => some (some m.2)
  | _ => none

/-- The columns of a record, each of them present or not. -/
def columns? (names : List String) : Json → Option (List (Option Json))
  | .object members => names.mapM (memberOnce? members)
  | .array items =>
    if items.length ≤ names.length then
      some (items.map some ++ List.replicate (names.length - items.length) none)
    else none
  | _ => none

/-- The columns of a record that has no other members. -/
def exactColumns? (names : List String) : Json → Option (List (Option Json))
  | .object members =>
    if members.all fun m => names.contains m.1 then columns? names (.object members) else none
  | v => columns? names v

/-- A column that has to be present. -/
def required? {α : Type} [JsonForm α] (column : Option Json) : Option α :=
  column.bind ofJson?

/-- A column with a default for when it is missing. -/
def orDefault? {α : Type} [JsonForm α] (default : α) : Option Json → Option α
  | none => some default
  | some v => ofJson? v

/-! ## Variants -/

/-- The name of a variant, and its content if it is written with one. -/
def variant? : Json → Option (String × Option Json)
  | .string name => some (name, none)
  | .object [(name, content)] => some (name, some content)
  | _ => none

/-- Reads a variant without content. -/
def bare? {α : Type} (a : α) : Option Json → Option α
  | none => some a
  | some .null => some a
  | _ => none

/-- Writes a variant with content. -/
def tagged (name : String) (content : Json) : Json := .object [(name, content)]

/-- Reads a number below a bound. -/
def below? (bound : Nat) : Json → Option (Fin bound)
  | .natural n => if h : n < bound then some ⟨n, h⟩ else none
  | _ => none

end Json

/-! ## Forms of basic types -/

instance : JsonForm String where
  toJson := .string
  ofJson?
    | .string s => some s
    | _ => none

instance : JsonForm Bool where
  toJson := .bool
  ofJson?
    | .bool b => some b
    | _ => none

instance : JsonForm UInt8 where
  toJson n := .natural n.toNat
  ofJson? v := (v.below? UInt8.size).map UInt8.ofFin

instance : JsonForm UInt16 where
  toJson n := .natural n.toNat
  ofJson? v := (v.below? UInt16.size).map UInt16.ofFin

instance : JsonForm UInt64 where
  toJson n := .natural n.toNat
  ofJson? v := (v.below? UInt64.size).map UInt64.ofFin

instance {α : Type} [JsonForm α] : JsonForm (List α) where
  toJson items := .array (items.map toJson)
  ofJson?
    | .array items => items.mapM ofJson?
    | _ => none

/-- Null stands for no value. -/
instance {α : Type} [JsonForm α] : JsonForm (Option α) where
  toJson
    | none => .null
    | some a => toJson a
  ofJson?
    | .null => some none
    | v => (ofJson? v).map some

instance {α : Type} [JsonForm α] : JsonForm (SortedMap String α) where
  toJson m := .object (m.entries.map fun e => (e.1, toJson e.2))
  ofJson?
    | .object members => (members.mapM fun m => (ofJson? m.2).map (m.1, ·)).map .ofList
    | _ => none

end ControlPlane
