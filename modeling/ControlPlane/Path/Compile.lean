/-
Compiling paths: the flow entries that carry out a path on a topology.

The pathlets are compiled one after the other. The out-ports of a pathlet are the ports that its
actions forward to; its in-port is the one that its match names, or one inherited from the out-ports
of the pathlet before. Traffic is sent from the node of the in-port, or from every node if there is no
in-port, to the node of every out-port, along the shortest routes. On the way, a pathlet forwards and
does what its other actions say; at the end it does all of its actions.

A pathlet that inherits no in-port although there were out-ports is skipped, and the next one starts
afresh. A path compiles as a whole or not at all.
-/
import ControlPlane.Config
import ControlPlane.Flow.Redundancy
import ControlPlane.Path
import ControlPlane.Topology.Routes

namespace ControlPlane

/-- Why a path cannot be compiled. -/
inductive CompileError where
  /-- The path has no pathlets. -/
  | emptyPath
  /-- A pathlet inherits another in-port than the one that its match names. -/
  | conflict (inherited explicit : Uid)
  /-- No route leads from a node to an out-port. -/
  | noPath (source outport : Uid)
  | malformedPort (cause : Uid.Error)
  | topology (cause : GraphError)
deriving DecidableEq, Repr

def CompileError.message : CompileError → String
  | .emptyPath => "Path has no pathlets"
  | .conflict inherited explicit => "Two different inports: " ++ inherited.text ++ " and " ++ explicit.text
  | .noPath source outport => "No path found from " ++ source.text ++ " to " ++ outport.text
  | .malformedPort cause => "Malformed port: " ++ cause.message
  | .topology cause => "Topology error: " ++ cause.message

/-- The node of a port that a path names. -/
def Uid.portNode (port : Uid) : Except CompileError Uid := port.nodeOfPort.mapError .malformedPort

/-! ## Ports of a pathlet -/

/-- The ports that an action forwards to. -/
def Action.outports (g : Graph) : Action → Except CompileError (List Uid)
  | .forward ports => .ok ports
  | .flood inPort => do
    let node ← inPort.portNode
    return ((g.links node).map Link.origin).filter (· != inPort)
  | _ => .ok []

namespace Pathlet

/-- The ports that the pathlet forwards to, each of them once. -/
def outports (g : Graph) (p : Pathlet) : Except CompileError (List Uid) := do
  return (← p.actions.mapM (Action.outports g)).flatten.eraseDups

/-- What is done with traffic on the way to the end of the pathlet, besides forwarding it. -/
def transitActions (p : Pathlet) : List Action := p.actions.filter fun a => !a.isForwarding

/-- The in-port of the pathlet when one may be inherited. -/
def effectiveInPort (p : Pathlet) (inherited : Option Uid) : Except CompileError (Option Uid) :=
  match p.pattern.inPort?, inherited with
  | some explicit, some inherited =>
    if explicit = inherited then .ok (some explicit) else .error (.conflict inherited explicit)
  | some explicit, none => .ok (some explicit)
  | none, inherited => .ok inherited

/-- The match of the pathlet with another in-port. -/
def patternAt (p : Pathlet) (inPort : Option Uid) : Match :=
  match inPort with
  | some port => p.pattern.withoutInPort.push (.inPort port)
  | none => p.pattern.withoutInPort

end Pathlet

/-- The nodes that traffic comes from. -/
def Graph.sources (g : Graph) (inPort : Option Uid) : Except CompileError (List Uid) :=
  match inPort with
  | some port => do return [← port.portNode]
  | none => .ok g.nodes

/-- The in-ports that a pathlet may inherit from the out-ports of the one before. -/
def Graph.inheritedInPorts (g : Graph) (addressing : InPortAddressing) (outports : List Uid) : List Uid :=
  match addressing with
  | .samePort => (outports.filter g.hasLinkFrom).eraseDups
  | .peer => (outports.flatMap fun port =>
      match port.nodeOfPort with
      | .ok node => ((g.links node).filter (·.origin == port)).flatMap Link.targets
      | .error _ => []).eraseDups

/-- The routes that get flow entries. -/
def RouteSelection.select (s : RouteSelection) (routes : List (List Link)) : List (List Link) :=
  match s with
  | .all => routes
  | .first => routes.take 1

/-! ## Flow entries of a pathlet -/

/-- What paths are compiled with. -/
structure Compiler where
  graph : Graph
  config : CompilerConfig

namespace Compiler

/-- A flow entry with the configured timeouts. -/
def entry (c : Compiler) (priority : UInt16) (node : Uid) (pattern : Match) (actions : List Action) :
    FlowEntry :=
  { node, pattern, actions, priority, idleTimeout := c.config.idleTimeout,
    hardTimeout := c.config.hardTimeout }

/-- The flow entries along a route: one on the node that each link leaves, and one on the last node. -/
def routeFlows (c : Compiler) (priority : UInt16) (p : Pathlet) (target : Uid) :
    (inPort : Option Uid) → List Link → Except CompileError (List FlowEntry)
  | inPort, [] => .ok [c.entry priority target (p.patternAt inPort) p.actions]
  | inPort, link :: route => do
    let node ← link.origin.portNode
    let rest ← c.routeFlows priority p target link.peer? route
    return c.entry priority node (p.patternAt inPort) (p.transitActions ++ [.forward [link.origin]]) :: rest

/-- The flow entries that take traffic from a node to an out-port. -/
def flowsTo (c : Compiler) (priority : UInt16) (p : Pathlet) (inPort : Option Uid) (source outport : Uid) :
    Except CompileError (List FlowEntry) := do
  let target ← outport.portNode
  match ← (c.graph.shortestRoutes source target).mapError .topology with
  | none => throw (.noPath source outport)
  | some routes =>
    if routes.length = 0 then return [c.entry priority target (p.patternAt inPort) p.actions]
    else return (← (c.config.selection.select routes.paths).mapM (c.routeFlows priority p target inPort)).flatten

/-- The flow entries of a pathlet, and its out-ports. -/
def pathletFlows (c : Compiler) (priority : UInt16) (p : Pathlet) (inherited : Option Uid) :
    Except CompileError (List FlowEntry × List Uid) := do
  let outports ← p.outports c.graph
  let inPort ← p.effectiveInPort inherited
  let sources ← c.graph.sources inPort
  let flows ← sources.mapM fun source => outports.mapM (c.flowsTo priority p inPort source)
  return (flows.flatten.flatten, outports)

/-! ## Flow entries of a path -/

/-- What has been compiled of a path. -/
structure Progress where
  flows : List FlowEntry
  /-- The out-ports of the last pathlet, none if the next one is to start afresh. -/
  outports : List Uid

/-- Compiles one more pathlet. -/
def advance (c : Compiler) (priority : UInt16) (s : Progress) (p : Pathlet) :
    Except CompileError Progress := do
  if s.outports.isEmpty then
    let (flows, outports) ← c.pathletFlows priority p none
    return ⟨s.flows ++ flows, outports⟩
  else
    let parts ← (c.graph.inheritedInPorts c.config.addressing s.outports).mapM fun inPort =>
      c.pathletFlows priority p (some inPort)
    return ⟨s.flows ++ parts.flatMap (·.1), parts.flatMap (·.2)⟩

/-- The flow entries of a path without the redundant ones. They have no IDs. -/
def compile (c : Compiler) (path : Path) : Except CompileError (List FlowEntry) := do
  if path.pathlets.isEmpty then throw .emptyPath
  let s ← path.pathlets.foldlM (c.advance path.priority) ⟨[], []⟩
  return FlowEntry.essential s.flows

end Compiler

end ControlPlane
