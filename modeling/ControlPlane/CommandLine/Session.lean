/-
A session: one run of the program, from its arguments to what it prints and whether it fails. What it
prints before a failure stays printed.
-/
import ControlPlane.CommandLine.Arguments
import ControlPlane.Controller.Worker
import ControlPlane.Text.Literal
import ControlPlane.Topology.Indexed
import ControlPlane.Topology.Shapes

namespace ControlPlane.CommandLine

/-! ## Failures -/

/-- Why a session fails. -/
inductive Failure where
  /-- The arguments are not accepted. -/
  | usage
  | config (cause : FileError)
  | pathFile (cause : FileError)
  | topology (cause : GraphError)
  | compile (cause : CompileError)
  | controller (cause : ControllerError)
deriving DecidableEq, Repr

/-- A UID as it is told in a failure. -/
def uidText (u : Uid) : String := "Uid(" ++ Text.literal u.text ++ ")"

/-- A failure of the compiler, with the UIDs it is about. -/
def compileText : CompileError → String
  | .emptyPath => "EmptyPath"
  | .conflict inherited explicit =>
    "Conflict \x7b inherited: " ++ uidText inherited ++ ", explicit: " ++ uidText explicit ++ " \x7d"
  | .noPath source outport =>
    "NoPath \x7b from: " ++ uidText source ++ ", to: " ++ uidText outport ++ " \x7d"
  | .malformedPort (.malformedPort u) => "MalformedPort(MalformedPort(" ++ uidText u ++ "))"
  | .topology _ => "Graph"

/-- The text that tells a failure. -/
def Failure.text : Failure → String
  | .usage => "Usage"
  | .config .io => "Io"
  | .config .json => "Json"
  | .pathFile .io => "Os"
  | .pathFile .json => "Error"
  | .topology (.malformedLink _) => "MalformedLink"
  | .topology (.noDestination _) => "NoDestination"
  | .topology (.selfLoop _ _) => "SelfLoop"
  | .topology (.invalidDistance _ _ _) => "InvalidDistance"
  | .compile cause => compileText cause
  | .controller (.graph _) => "GraphError"
  | .controller (.tracker _) => "TrackerError"
  | .controller (.store _) => "StoreError"
  | .controller (.notImplemented _) => "NotImplemented"

/-- The exit code of a failure. -/
def Failure.exitCode : Failure → UInt32
  | .usage => 2
  | _ => 1

/-! ## Sessions -/

/-- What can fail after it printed some text. -/
abbrev Session (m : Type → Type) := ExceptT Failure (StateT String m)

variable {m : Type → Type} [Monad m] [MonadFiles m]

/-- Prints a line. -/
def printLine (line : String) : Session m Unit := modify (· ++ line ++ "\n")

/-- Goes on with what a computation gives, or fails. -/
def orFail {ε α : Type} (f : ε → Failure) (x : ExceptT ε m α) : Session m α := do
  match ← (x.run : m (Except ε α)) with
  | .ok a => return a
  | .error e => throw (f e)

/-- Goes on with a value, or fails. -/
def orThrow {ε α : Type} (f : ε → Failure) (x : Except ε α) : Session m α :=
  match x with
  | .ok a => return a
  | .error e => throw (f e)

/-- The configuration: that of a file, or the default one, with the flags applied. -/
def configOf (a : Arguments) : Session m ControllerConfig := do
  let config : ControllerConfig ← match a.configFile with
    | some file => orFail .config (readValue file)
    | none => pure {}
  return { config with compiler := { config.compiler with
    selection := if a.firstRoute then .first else config.compiler.selection
    addressing := if a.peerInPorts then .peer else config.compiler.addressing } }

/-- The topology that was chosen. -/
def TopologyChoice.graph : TopologyChoice → Except GraphError Graph
  | .line n => Topology.line n
  | .ring n => Topology.ring n
  | .grid width height => Topology.grid width height
  | .random n p seed => Topology.random n p seed
  | .disjoint => Topology.disjointRoutes
  | .branches => Topology.twoBranches

/-- The path from one port to another. -/
def PathChoice.direct (p : PathChoice) : Path :=
  { priority := p.priority
    pathlets := [{ pattern := Match.any.push (.inPort ⟨p.source⟩), actions := [.forward [⟨p.target⟩]] }] }

/-- The path that was chosen. -/
def PathChoice.path (p : PathChoice) : Session m Path :=
  match p.file with
  | some file => orFail .pathFile (readValue file)
  | none => return p.direct

/-! ## Jobs -/

/-- Prints the shortest routes between two nodes. -/
def listRoutes (g : Graph) (source target : String) : Session m Unit := do
  match ← orThrow .topology (g.shortestRoutes ⟨source⟩ ⟨target⟩) with
  | some routes =>
    printLine (Numeral.decimal routes.paths.length ++ " routes of length " ++
      Numeral.decimal routes.length ++ " from " ++ source ++ " to " ++ target)
    for route in routes.paths do
      printLine ("  " ++ ", ".intercalate (route.map Link.describe))
  | none => printLine (target ++ " is not reachable from " ++ source)

/-- Prints the flow entries of a path. -/
def compile (now : Timestamp) (config : ControllerConfig) (g : Graph) (path : Path) : Session m Unit := do
  let c ← orThrow .controller ((Controller.new config).addLinks now g.allLinks)
  printLine (Json.encodePretty (← orThrow .compile (c.compilePath path)))

/-- The actor that requests the path of the demo. -/
def demoRequester : ActorRef := ⟨"demo", "0"⟩

/-- What commands lead to, up to the one that decides on the path. -/
structure Reaction where
  lines : List String
  /-- The confirmations of the flow entries. -/
  confirmations : List Event
  /-- A command has decided on the path. -/
  decided : Bool

/-- Installs flow entries until the path is decided. -/
def react : List Command → Reaction
  | [] => ⟨[], [], false⟩
  | .addFlowEntry flow ack :: commands =>
    let r := react commands
    { r with
      lines := ("install " ++ flow.describe ++ " (ack to " ++ ack.describe ++ ")") :: r.lines
      confirmations := .flowEntryAdded flow :: r.confirmations }
  | .pathAdded requester path :: _ =>
    ⟨["path " ++ path.id ++ " installed, notify " ++ requester.describe], [], true⟩
  | .pathRejected requester _ reason :: _ =>
    ⟨["path rejected, notify " ++ requester.describe ++ ": " ++ reason], [], true⟩

/-- Lets a worker handle events, and prints what its commands lead to. -/
def exchange (now : Timestamp) (w : Worker) (events : List Event) : Session m (Worker × Reaction) := do
  let (commands, w) := ((events.foldl Worker.send w).settle now).readAll
  let r := react commands
  for line in r.lines do
    printLine line
  return (w, r)

/-- Installs a path and confirms its flow entries. The answers to the confirmations ask for no further
entries, so two exchanges decide on the path or nothing does. -/
def demo (now : Timestamp) (config : ControllerConfig) (g : Graph) (path : Path) : Session m Unit := do
  let c ← orFail .controller (Controller.restore config)
  let c ← orThrow .controller (c.addLinks now g.allLinks)
  let (w, r) ← exchange now (.start c) [.addPath demoRequester path]
  let w ← if r.decided then pure w else do
    let (w, _) ← exchange now w r.confirmations
    pure w
  let _ ← orFail .controller (w.shutdown now)

/-- Does what the arguments ask for. -/
def perform (now : Timestamp) (a : Arguments) : Session m Unit := do
  let config ← configOf a
  let g ← orThrow .topology a.topology.graph
  match a.job with
  | .dot => printLine g.toDot
  | .routes source target => listRoutes g source target
  | .compile p => compile now config g (← p.path)
  | .demo p => demo now config g (← p.path)

/-- Runs the program: the failure if there is one, and what is printed. -/
def run (now : Timestamp) (arguments : List String) : m (Except Failure Unit × String) :=
  match Arguments.ofList? arguments with
  | some a => ((perform now a).run).run ""
  | none => return (.error .usage, "")

end ControlPlane.CommandLine
