/-
Messages between the controller and its environment: events come in, commands go out.
-/
import ControlPlane.Actor
import ControlPlane.Flow
import ControlPlane.Network
import ControlPlane.Path

namespace ControlPlane

/-- What the controller is told. -/
inductive Event where
  | linkAdded (link : Link)
  | linkDeleted (link : Link)
  | nodeJoined (node : Node)
  /-- The requester asks for a path. -/
  | addPath (requester : ActorRef) (path : Path)
  | delPath (path : Path)
  /-- A flow entry was installed. -/
  | flowEntryAdded (flow : FlowEntry)
  | flowEntryDeleted (flow : FlowEntry)
deriving DecidableEq, Repr

/-- What the controller asks for or announces. -/
inductive Command where
  /-- Install a flow entry and confirm it to `ack`. -/
  | addFlowEntry (flow : FlowEntry) (ack : ActorRef)
  /-- All flow entries of the path are installed. -/
  | pathAdded (requester : ActorRef) (path : Path)
  /-- The path was not accepted. -/
  | pathRejected (requester : ActorRef) (path : Path) (reason : String)
deriving DecidableEq, Repr

instance : JsonForm Event where
  toJson
    | .linkAdded link => Json.tagged "LinkAdded" (toJson link)
    | .linkDeleted link => Json.tagged "LinkDeleted" (toJson link)
    | .nodeJoined node => Json.tagged "NodeJoined" (toJson node)
    | .addPath requester path => Json.tagged "AddPath"
        (.object [("requester", toJson requester), ("path", toJson path)])
    | .delPath path => Json.tagged "DelPath" (toJson path)
    | .flowEntryAdded flow => Json.tagged "FlowEntryAdded" (toJson flow)
    | .flowEntryDeleted flow => Json.tagged "FlowEntryDeleted" (toJson flow)
  ofJson? v :=
    match v.variant? with
    | some ("LinkAdded", some c) => (ofJson? c).map .linkAdded
    | some ("LinkDeleted", some c) => (ofJson? c).map .linkDeleted
    | some ("NodeJoined", some c) => (ofJson? c).map .nodeJoined
    | some ("AddPath", some c) => do
      let [requester, path] ← c.columns? ["requester", "path"] | none
      return .addPath (← Json.required? requester) (← Json.required? path)
    | some ("DelPath", some c) => (ofJson? c).map .delPath
    | some ("FlowEntryAdded", some c) => (ofJson? c).map .flowEntryAdded
    | some ("FlowEntryDeleted", some c) => (ofJson? c).map .flowEntryDeleted
    | _ => none

instance : JsonForm Command where
  toJson
    | .addFlowEntry flow ack => Json.tagged "AddFlowEntry"
        (.object [("flow", toJson flow), ("ack", toJson ack)])
    | .pathAdded requester path => Json.tagged "PathAdded"
        (.object [("requester", toJson requester), ("path", toJson path)])
    | .pathRejected requester path reason => Json.tagged "PathRejected"
        (.object [("requester", toJson requester), ("path", toJson path), ("reason", toJson reason)])
  ofJson? v :=
    match v.variant? with
    | some ("AddFlowEntry", some c) => do
      let [flow, ack] ← c.columns? ["flow", "ack"] | none
      return .addFlowEntry (← Json.required? flow) (← Json.required? ack)
    | some ("PathAdded", some c) => do
      let [requester, path] ← c.columns? ["requester", "path"] | none
      return .pathAdded (← Json.required? requester) (← Json.required? path)
    | some ("PathRejected", some c) => do
      let [requester, path, reason] ← c.columns? ["requester", "path", "reason"] | none
      return .pathRejected (← Json.required? requester) (← Json.required? path)
        (← Json.required? reason)
    | _ => none

end ControlPlane
