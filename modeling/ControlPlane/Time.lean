/-
Lengths of time and points in time, in seconds and nanoseconds. Both are kept in normal form: the
nanoseconds are below one second, and a point in time lies at or after the epoch, within 63 bits of
seconds. When they are read, surplus nanoseconds are carried into the seconds.
-/
import ControlPlane.Json.Form

namespace ControlPlane

/-- The nanoseconds of a second. -/
abbrev Nanos := Fin 1000000000

/-- A length of time. -/
structure Duration where
  secs : UInt64
  nanos : Nanos
deriving DecidableEq, Repr, Inhabited

namespace Duration

def zero : Duration := ⟨0, 0⟩

def ofSecs (secs : UInt64) : Duration := ⟨secs, 0⟩

/-- The length of time with surplus nanoseconds carried, if its seconds fit. -/
def carry? (secs nanos : Nat) : Option Duration :=
  let total := secs + nanos / 1000000000
  if total < UInt64.size then some ⟨UInt64.ofNat total, Fin.ofNat _ nanos⟩ else none

end Duration

/-- The seconds of a point in time: 63 bits. -/
abbrev Seconds := Fin 9223372036854775808

/-- A point in time, counted from the epoch. -/
structure Timestamp where
  secs : Seconds
  nanos : Nanos
deriving DecidableEq, Repr

namespace Timestamp

/-- The start of the count. -/
def epoch : Timestamp := ⟨0, 0⟩

/-- The point in time that many nanoseconds after the epoch. -/
def ofNanos (nanos : Nat) : Timestamp := ⟨Fin.ofNat _ (nanos / 1000000000), Fin.ofNat _ nanos⟩

/-- The point in time with surplus nanoseconds carried, if its seconds fit. -/
def carry? (secs nanos : Nat) : Option Timestamp :=
  let total := secs + nanos / 1000000000
  if h : total < 9223372036854775808 then some ⟨⟨total, h⟩, Fin.ofNat _ nanos⟩ else none

end Timestamp

/-! ## JSON forms -/

instance : JsonForm Duration where
  toJson d := .object [("secs", .natural d.secs.toNat), ("nanos", .natural d.nanos.val)]
  ofJson? v := do
    let [some secs, some nanos] ← v.exactColumns? ["secs", "nanos"] | none
    Duration.carry? (← secs.below? UInt64.size).val (← nanos.below? UInt32.size).val

instance : JsonForm Timestamp where
  toJson t := .object
    [("secs_since_epoch", .natural t.secs.val), ("nanos_since_epoch", .natural t.nanos.val)]
  ofJson? v := do
    let [some secs, some nanos] ← v.exactColumns? ["secs_since_epoch", "nanos_since_epoch"] | none
    Timestamp.carry? (← secs.below? UInt64.size).val (← nanos.below? UInt32.size).val

end ControlPlane
