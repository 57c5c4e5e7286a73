/-
Values in files. A snapshot of a dict is one file in a directory, named after the dict, that holds its
entries as JSON. A dict without a snapshot is restored as an empty one.
-/
import ControlPlane.Dict
import ControlPlane.Json.Text
import ControlPlane.Storage.Files

namespace ControlPlane

/-- Why a value is not written to a file or read from it. -/
inductive FileError where
  /-- The file cannot be written or opened. -/
  | io
  /-- The file does not hold such a value. -/
  | json
deriving DecidableEq, Repr

/-- Reads the value that a file holds as JSON. -/
def readValue {α : Type} [JsonForm α] {m : Type → Type} [Monad m] [MonadFiles m] (place : String) :
    ExceptT FileError m α := do
  match ← readFile (m := m) place with
  | .absent | .denied => throw .io
  | .unreadable => throw .json
  | .text text =>
    match Json.decode? text with
    | some a => return a
    | none => throw .json

/-! ## Snapshots -/

/-- The place of the snapshot of the dict with a name. -/
def snapshotPlace (dir name : String) : String := joinPlace dir (name ++ ".json")

namespace Dict

variable {α : Type} [JsonForm α] {m : Type → Type} [Monad m] [MonadFiles m]

/-- The text of the snapshot. -/
def snapshot (d : Dict α) : String := Json.encodePretty d.entries

/-- Saves the dict in a directory, which is created if it is missing. -/
def save (d : Dict α) (dir : String) : ExceptT FileError m Unit := do
  unless ← createDirectories (m := m) dir do throw .io
  unless ← writeFile (m := m) (snapshotPlace dir d.name) d.snapshot do throw .io

/-- Restores the dict with a name from a directory. -/
def load (name dir : String) : ExceptT FileError m (Dict α) := do
  if (← readFile (m := m) (snapshotPlace dir name)) = .absent then return .empty name
  return ⟨name, ← readValue (snapshotPlace dir name)⟩

end Dict

end ControlPlane
