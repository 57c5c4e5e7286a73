/-
The controller: it owns the topology, the nodes that joined and the tracker, and handles one event at
a time. Handling an event gives commands, or an error that leaves the controller as it was. The state
is kept in four dicts, which are saved and restored in one order.
-/
import ControlPlane.Path.Compile
import ControlPlane.Path.Tracker
import ControlPlane.Storage.Snapshot

namespace ControlPlane

/-- The state of the control plane. -/
structure Controller where
  config : ControllerConfig
  graph : Graph
  nodes : Dict Node
  tracker : Tracker

/-- Why an event is not handled, or the state not saved or restored. -/
inductive ControllerError where
  | graph (cause : GraphError)
  | tracker (cause : TrackerError)
  | store (cause : FileError)
  | notImplemented (operation : String)
deriving DecidableEq, Repr

def ControllerError.message : ControllerError → String
  | .graph cause => "Topology Error: " ++ cause.message
  | .tracker cause => "Tracker Error: " ++ cause.message
  | .store .io => "Store Error: the state cannot be written"
  | .store .json => "Store Error: a snapshot cannot be read"
  | .notImplemented operation => "Not implemented: " ++ operation

namespace Controller

/-- The name of the dict that holds the nodes. -/
def nodeDictName : String := "Node"

/-- The controller with an empty state. -/
def new (config : ControllerConfig) : Controller :=
  { config, graph := .empty, nodes := .empty nodeDictName, tracker := .new config.identity }

instance : Inhabited Controller := ⟨new default⟩

/-! ## Paths -/

/-- The flow entries of a path on the topology as it is. -/
def compilePath (c : Controller) (path : Path) : Except CompileError (List FlowEntry) :=
  Compiler.compile ⟨c.graph, c.config.compiler⟩ path

/-- Compiles and tracks a path, or rejects it. -/
def addPath (c : Controller) (now : Timestamp) (requester : ActorRef) (path : Path) :
    List Command × Controller :=
  match c.compilePath path with
  | .error e => ([.pathRejected requester path e.message], c)
  | .ok flows =>
    match c.tracker.track now requester path flows with
    | (.error e, tracker) => ([.pathRejected requester path e.message], { c with tracker })
    | (.ok commands, tracker) => (commands, { c with tracker })

/-! ## Events -/

/-- Handles one event. -/
def handle (c : Controller) (now : Timestamp) : Event → Except ControllerError (List Command) × Controller
  | .linkAdded link =>
    match c.graph.addLink link with
    | (.ok (), graph) => (.ok [], { c with graph })
    | (.error e, graph) => (.error (.graph e), { c with graph })
  | .linkDeleted link =>
    match c.graph.removeLink link with
    | (.ok _, graph) => (.ok [], { c with graph })
    | (.error e, graph) => (.error (.graph e), { c with graph })
  | .nodeJoined node => (.ok [], { c with nodes := c.nodes.insert node.id node })
  | .addPath requester path =>
    let (commands, c) := c.addPath now requester path
    (.ok commands, c)
  | .delPath _ => (.error (.notImplemented "path deletion"), c)
  | .flowEntryAdded flow =>
    match c.tracker.confirm flow with
    | (.ok command, tracker) => (.ok command.toList, { c with tracker })
    | (.error e, tracker) => (.error (.tracker e), { c with tracker })
  | .flowEntryDeleted _ => (.error (.notImplemented "flow deletion"), c)

/-- Adds links one after the other, up to the first failure. -/
def addLinks (c : Controller) (now : Timestamp) : List Link → Except ControllerError Controller
  | [] => .ok c
  | link :: links =>
    match c.handle now (.linkAdded link) with
    | (.ok _, c) => c.addLinks now links
    | (.error e, _) => .error e

/-! ## State that outlives a run -/

variable {m : Type → Type} [Monad m] [MonadFiles m]

/-- Saves the state, if the configuration names a directory for it. -/
def save (c : Controller) : ExceptT ControllerError m Unit :=
  match c.config.stateDir with
  | none => return
  | some dir => ExceptT.adapt ControllerError.store do
    c.graph.adjacency.save dir
    c.nodes.save dir
    c.tracker.paths.save dir
    c.tracker.ids.counters.save dir

/-- The controller with the state that was saved. -/
def restore (config : ControllerConfig) : ExceptT ControllerError m Controller :=
  match config.stateDir with
  | none => return new config
  | some dir => ExceptT.adapt ControllerError.store do
    let adjacency ← Dict.load Graph.dictName dir
    let nodes ← Dict.load nodeDictName dir
    let paths ← Dict.load Tracker.dictName dir
    let counters ← Dict.load IdCounters.dictName dir
    return { config, graph := ⟨adjacency⟩, nodes, tracker := ⟨config.identity, paths, ⟨counters⟩⟩ }

end Controller

end ControlPlane
