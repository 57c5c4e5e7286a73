/-
IDs of paths and flow entries. IDs are taken from counters in a dict, so that none is used again
after the state was restored. A counter that cannot hold the requested IDs is left as it is.
-/
import ControlPlane.Dict
import ControlPlane.Path

namespace ControlPlane

/-- The counters that IDs are taken from. -/
structure IdCounters where
  /-- The next free ID of each counter. -/
  counters : Dict UInt64

/-- IDs that follow each other, without `stop`. -/
structure IdRange where
  start : UInt64
  stop : UInt64
deriving DecidableEq, Repr

/-- Why no IDs can be given. -/
inductive IdError where
  /-- The counter does not hold so many more IDs. -/
  | exhausted (counter : String) (start count : UInt64)
deriving DecidableEq, Repr

def IdError.message : IdError → String
  | .exhausted counter start count =>
    "Counter " ++ counter ++ " at " ++ Numeral.decimal start.toNat ++ " cannot reserve " ++
      Numeral.decimal count.toNat ++ " more IDs"

namespace IdCounters

/-- The name of the dict that holds the counters. -/
def dictName : String := "ID"

/-- The counter of path IDs. -/
def pathCounter : String := "path"

/-- The counter of flow IDs. -/
def flowCounter : String := "flow"

def empty : IdCounters := ⟨.empty dictName⟩

instance : Inhabited IdCounters := ⟨empty⟩

/-- The next free ID of a counter. -/
def next (ids : IdCounters) (counter : String) : UInt64 := (ids.counters.get? counter).getD 0

/-- Takes a number of IDs from a counter, which starts at 0 when it is used for the first time. -/
def reserve (ids : IdCounters) (counter : String) (count : UInt64) :
    Except IdError IdRange × IdCounters :=
  let (start, counters) := ids.counters.entry counter 0
  if start.toNat + count.toNat < UInt64.size then
    (.ok ⟨start, start + count⟩, ⟨counters.insert counter (start + count)⟩)
  else (.error (.exhausted counter start count), ⟨counters⟩)

/-- Takes the next path ID. -/
def reservePath (ids : IdCounters) : Except IdError UInt64 × IdCounters :=
  let (range, ids) := ids.reserve pathCounter 1
  (range.map IdRange.start, ids)

/-- Takes a number of flow IDs. -/
def reserveFlows (ids : IdCounters) (count : UInt64) : Except IdError IdRange × IdCounters :=
  ids.reserve flowCounter count

end IdCounters

/-- The text of a path ID. -/
def Path.idText (id : UInt64) : String := Numeral.hex id.toNat

end ControlPlane
