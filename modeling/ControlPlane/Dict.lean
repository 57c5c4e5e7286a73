/-
Dicts: named maps with text keys. Every piece of state that outlives a run is kept in a dict, and
the name of the dict says where it is stored.
-/
import ControlPlane.Json.Form

namespace ControlPlane

/-- A named map with text keys. -/
structure Dict (α : Type) where
  name : String
  entries : SortedMap String α

namespace Dict

variable {α : Type}

def empty (name : String) : Dict α := ⟨name, .empty⟩

instance : Inhabited (Dict α) := ⟨empty ""⟩

def get? (d : Dict α) (key : String) : Option α := d.entries.get? key

def contains (d : Dict α) (key : String) : Bool := d.entries.contains key

def keys (d : Dict α) : List String := d.entries.keys

def toList (d : Dict α) : List (String × α) := d.entries.entries

def size (d : Dict α) : Nat := d.entries.size

def isEmpty (d : Dict α) : Bool := d.entries.isEmpty

/-- The dict with the value of one key set. -/
def insert (d : Dict α) (key : String) (v : α) : Dict α := { d with entries := d.entries.insert key v }

/-- The dict without a key. -/
def erase (d : Dict α) (key : String) : Dict α := { d with entries := d.entries.erase key }

/-! ## Operations that tell what was there -/

/-- Sets the value of a key, and returns the former one. -/
def put (d : Dict α) (key : String) (v : α) : Option α × Dict α := (d.get? key, d.insert key v)

/-- Sets the value of a key that is present, and returns the former one. -/
def set (d : Dict α) (key : String) (v : α) : Option α × Dict α :=
  match d.get? key with
  | some old => (some old, d.insert key v)
  | none => (none, d)

/-- Removes a key, and returns its value. -/
def remove (d : Dict α) (key : String) : Option α × Dict α := (d.get? key, d.erase key)

/-- The value of a key, which is inserted with a default if it is absent. -/
def entry (d : Dict α) (key : String) (default : α) : α × Dict α :=
  match d.get? key with
  | some v => (v, d)
  | none => (default, d.insert key default)

@[simp] theorem get?_insert_self (d : Dict α) (key : String) (v : α) :
    (d.insert key v).get? key = some v :=
  SortedMap.get?_insert_self _ _ _

theorem get?_insert_of_ne (d : Dict α) {key key' : String} (v : α) (h : key' ≠ key) :
    (d.insert key v).get? key' = d.get? key' :=
  SortedMap.get?_insert_of_ne _ _ h

theorem insert_insert (d : Dict α) (key : String) (v w : α) : (d.insert key v).insert key w = d.insert key w := by
  simp only [insert, SortedMap.insert_insert]

theorem insert_of_get? {d : Dict α} {key : String} {v : α} (h : d.get? key = some v) : d.insert key v = d := by
  simp only [insert, SortedMap.insert_of_get? h]

theorem entry_fst (d : Dict α) (key : String) (default : α) :
    (d.entry key default).1 = (d.get? key).getD default := by
  unfold entry; split <;> simp [*]

theorem name_entry (d : Dict α) (key : String) (default : α) : (d.entry key default).2.name = d.name := by
  unfold entry; split <;> rfl

/-- A value that is set after a look-up with a default takes the place of the default. -/
theorem insert_entry (d : Dict α) (key : String) (default v : α) :
    (d.entry key default).2.insert key v = d.insert key v := by
  unfold entry; split
  · rfl
  · exact insert_insert d key default v

@[simp] theorem get?_erase_self (d : Dict α) (key : String) : (d.erase key).get? key = none :=
  SortedMap.get?_erase_self _ _

theorem get?_erase_of_ne (d : Dict α) {key key' : String} (h : key' ≠ key) :
    (d.erase key).get? key' = d.get? key' :=
  SortedMap.get?_erase_of_ne _ h

end Dict

instance {α : Type} [JsonForm α] : JsonForm (Dict α) where
  toJson d := .object [("name", toJson d.name), ("entries", toJson d.entries)]
  ofJson? v := do
    let [name, entries] ← v.columns? ["name", "entries"] | none
    return ⟨← Json.required? name, ← Json.required? entries⟩

end ControlPlane
