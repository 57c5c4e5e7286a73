/-
Tracking the installation of paths. Every accepted path has a record with its flow entries and
whether each of them is installed. The entries carry the ID of their path, so a confirmation finds
its record, and there the first entry that is equal to the confirmed one. When the last entry is
confirmed, the requester of the path is told.
-/
import ControlPlane.Message
import ControlPlane.Path.Ids

namespace ControlPlane

/-! ## Records -/

/-- A flow entry of a path, and whether it is installed. -/
structure FlowStatus where
  flow : FlowEntry
  installed : Bool
deriving DecidableEq, Repr

/-- What is known of an accepted path. -/
structure PathRecord where
  /-- The actor to tell when the path is installed. -/
  requester : ActorRef
  path : Path
  flows : List FlowStatus
  /-- The number of entries that are installed. -/
  installed : UInt64
  /-- When the path was accepted. -/
  created : Timestamp
deriving DecidableEq, Repr

/-- All entries are installed. -/
def PathRecord.isComplete (r : PathRecord) : Bool := r.installed.toNat == r.flows.length

instance : JsonForm FlowStatus where
  toJson s := .object [("flow", toJson s.flow), ("installed", toJson s.installed)]
  ofJson? v := do
    let [flow, installed] ← v.columns? ["flow", "installed"] | none
    return ⟨← Json.required? flow, ← Json.required? installed⟩

instance : JsonForm PathRecord where
  toJson r := .object
    [("requester", toJson r.requester), ("path", toJson r.path), ("flows", toJson r.flows),
      ("installed", toJson r.installed), ("created", toJson r.created)]
  ofJson? v := do
    let [requester, path, flows, installed, created] ← v.columns?
      ["requester", "path", "flows", "installed", "created"] | none
    return {
      requester := ← Json.required? requester
      path := ← Json.required? path
      flows := ← Json.required? flows
      installed := ← Json.required? installed
      created := ← Json.required? created }

/-! ## The tracker -/

/-- The records of all accepted paths, and the counters for their IDs. -/
structure Tracker where
  /-- The actor to which confirmations are sent. -/
  identity : ActorRef
  paths : Dict PathRecord
  ids : IdCounters

/-- Why the tracker refuses an operation. -/
inductive TrackerError where
  /-- No path has the ID of the confirmed entry. -/
  | unknownPath (path : String)
  /-- No entry of the path is equal to the confirmed one. -/
  | unknownFlow (path : String) (flow : FlowEntry)
  | alreadyInstalled (path : String) (flow : FlowEntry)
  /-- No ID is left for a path. -/
  | ids (cause : IdError)
deriving DecidableEq, Repr

def TrackerError.message : TrackerError → String
  | .unknownPath path => "Flow confirmed for unknown path " ++ path
  | .unknownFlow path flow => "Path " ++ path ++ " has no flow " ++ flow.describe
  | .alreadyInstalled path flow =>
    "Flow " ++ flow.describe ++ " of path " ++ path ++ " is already installed"
  | .ids cause => "Cannot assign a path ID: " ++ cause.message

namespace Tracker

/-- The name of the dict that holds the records. -/
def dictName : String := "Path"

/-- The tracker that knows no path. -/
def new (identity : ActorRef) : Tracker := ⟨identity, .empty dictName, .empty⟩

/-- The record of a path. -/
def record? (t : Tracker) (path : String) : Option PathRecord := t.paths.get? path

/-- The record of a path of which nothing is installed. -/
def newRecord (now : Timestamp) (requester : ActorRef) (path : Path) (flows : List FlowEntry) : PathRecord :=
  { requester, path, flows := flows.map (⟨·, false⟩), installed := 0, created := now }

/-- What is asked for when a path is accepted: its entries, or nothing if it has none. -/
def acceptance (t : Tracker) (requester : ActorRef) (path : Path) (flows : List FlowEntry) : List Command :=
  if flows.isEmpty then [.pathAdded requester path] else flows.map (.addFlowEntry · t.identity)

/-- Accepts a path with its flow entries: the path and its entries get a new ID. -/
def track (t : Tracker) (now : Timestamp) (requester : ActorRef) (path : Path) (flows : List FlowEntry) :
    Except TrackerError (List Command) × Tracker :=
  match t.ids.reservePath with
  | (.error e, ids) => (.error (.ids e), { t with ids })
  | (.ok id, ids) =>
    let path := { path with id := Path.idText id }
    let flows := flows.map fun f => { f with id := path.id }
    (.ok (t.acceptance requester path flows),
      { t with ids, paths := t.paths.insert path.id (newRecord now requester path flows) })

/-- Flags the first entry that is equal to the given one, and tells whether it was flagged before. -/
def flag? (flow : FlowEntry) : List FlowStatus → Option (Bool × List FlowStatus)
  | [] => none
  | s :: rest =>
    if s.flow.equals flow then some (s.installed, { s with installed := true } :: rest)
    else (flag? flow rest).map fun p => (p.1, s :: p.2)

/-- What is announced when the record of a path changes to the given one. -/
def announcement (r : PathRecord) : Option Command :=
  if r.isComplete then some (.pathAdded r.requester r.path) else none

/-- Confirms that a flow entry is installed. -/
def confirm (t : Tracker) (flow : FlowEntry) : Except TrackerError (Option Command) × Tracker :=
  match t.paths.get? flow.id with
  | none => (.error (.unknownPath flow.id), t)
  | some r =>
    match flag? flow r.flows with
    | none => (.error (.unknownFlow flow.id flow), t)
    | some (true, _) => (.error (.alreadyInstalled flow.id flow), t)
    | some (false, flows) =>
      let r := { r with flows, installed := r.installed + 1 }
      (.ok (announcement r), { t with paths := t.paths.insert flow.id r })

end Tracker

end ControlPlane
