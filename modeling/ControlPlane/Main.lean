/-
The program itself: it runs a session on the files and the clock of the system.
-/
import ControlPlane.CommandLine.Session
import Std.Time.DateTime

namespace ControlPlane

/-- Whether an action succeeds. -/
def succeeds (action : IO Unit) : IO Bool := do
  try
    action
    return true
  catch _ => return false

/-- The text of an open file. -/
def textOf (handle : IO.FS.Handle) : IO FileText := do
  try
    return .text (← handle.readToEnd)
  catch _ => return .unreadable

/-- Creates the directories that are missing, each in the one before, from a place on. -/
def createFrom (place : String) : List String → IO Unit
  | [] => return
  | name :: names => do
    let next := joinPlace place name
    try
      IO.FS.createDir next
    catch
      | .alreadyExists .. => pure ()
      | e => throw e
    createFrom next names

/-- Creates a directory with all that it lies in. Only in a directory there is a `.` to open. -/
def createAll (place : String) : IO Unit := do
  createFrom (namesOf place).1 (namesToCreate (namesOf place).2)
  discard (IO.FS.Handle.mk (joinPlace place ".") .read)

instance : MonadFiles IO where
  readFile place := do
    try
      textOf (← IO.FS.Handle.mk place .read)
    catch
      | .permissionDenied .. => return .denied
      | _ => return .absent
  createDirectories place :=
    if place = "" then return true
    else if isPlace place then succeeds (createAll place)
    else return false
  writeFile place text := succeeds (IO.FS.writeFile place text)

/-- The time of the system's clock. -/
def currentTime : IO Timestamp := do
  let now ← Std.Time.Timestamp.now
  return .ofNanos now.toNanosecondsSinceUnixEpoch.val.toNat

end ControlPlane

/-- Runs the program with its arguments. -/
def main (arguments : List String) : IO UInt32 := do
  let (result, printed) ← ControlPlane.CommandLine.run (← ControlPlane.currentTime) arguments
  IO.print printed
  match result with
  | .ok () => return 0
  | .error failure =>
    IO.eprintln ("Error: " ++ failure.text)
    return failure.exitCode
