/-
The configuration of the controller and of its path compiler. Everything has a default, so the empty
object is a complete configuration.
-/
import ControlPlane.Actor
import ControlPlane.Time

namespace ControlPlane

/-- Which of the shortest routes between two nodes get flow entries. -/
inductive RouteSelection where
  | all
  | first
deriving DecidableEq, Repr, Inhabited

/-- How the ports where traffic leaves a hop become the in-ports of the next hop. -/
inductive InPortAddressing where
  /-- The port itself is the in-port, if some link leaves it. -/
  | samePort
  /-- The ports at the far end of the links that leave the port are the in-ports. -/
  | peer
deriving DecidableEq, Repr, Inhabited

/-- The configuration of the path compiler. -/
structure CompilerConfig where
  selection : RouteSelection := .all
  addressing : InPortAddressing := .samePort
  /-- The idle timeout of flow entries in seconds; zero is none. -/
  idleSecs : UInt64 := 0
  /-- The hard timeout of flow entries in seconds; zero is none. -/
  hardSecs : UInt64 := 0
deriving DecidableEq, Repr, Inhabited

namespace CompilerConfig

def idleTimeout (c : CompilerConfig) : Duration := .ofSecs c.idleSecs

def hardTimeout (c : CompilerConfig) : Duration := .ofSecs c.hardSecs

end CompilerConfig

/-- The name of the application. -/
def ControllerConfig.appName : String := "path"

/-- The configuration of the controller. -/
structure ControllerConfig where
  /-- The actor to which confirmations of flow entries are sent. -/
  identity : ActorRef := ⟨ControllerConfig.appName, "0"⟩
  /-- The directory where the state is kept; without one, nothing outlives a run. -/
  stateDir : Option String := none
  compiler : CompilerConfig := {}
deriving DecidableEq, Repr

instance : Inhabited ControllerConfig := ⟨{}⟩

/-! ## JSON forms -/

instance : JsonForm RouteSelection where
  toJson
    | .all => .string "all"
    | .first => .string "first"
  ofJson? v :=
    match v.variant? with
    | some ("all", content) => Json.bare? .all content
    | some ("first", content) => Json.bare? .first content
    | _ => none

instance : JsonForm InPortAddressing where
  toJson
    | .samePort => .string "mirrored"
    | .peer => .string "peer"
  ofJson? v :=
    match v.variant? with
    | some ("mirrored", content) => Json.bare? .samePort content
    | some ("peer", content) => Json.bare? .peer content
    | _ => none

instance : JsonForm CompilerConfig where
  toJson c := .object
    [("path_selection", toJson c.selection), ("inport_addressing", toJson c.addressing),
      ("idle_timeout_secs", toJson c.idleSecs), ("hard_timeout_secs", toJson c.hardSecs)]
  ofJson? v := do
    let [selection, addressing, idle, hard] ← v.columns?
      ["path_selection", "inport_addressing", "idle_timeout_secs", "hard_timeout_secs"] | none
    return {
      selection := ← Json.orDefault? .all selection
      addressing := ← Json.orDefault? .samePort addressing
      idleSecs := ← Json.orDefault? 0 idle
      hardSecs := ← Json.orDefault? 0 hard }

instance : JsonForm ControllerConfig where
  toJson c := .object
    [("identity", toJson c.identity), ("state_dir", toJson c.stateDir), ("compiler", toJson c.compiler)]
  ofJson? v := do
    let [identity, stateDir, compiler] ← v.columns? ["identity", "state_dir", "compiler"] | none
    return {
      identity := ← Json.orDefault? ⟨ControllerConfig.appName, "0"⟩ identity
      stateDir := ← Json.orDefault? none stateDir
      compiler := ← Json.orDefault? {} compiler }

end ControlPlane
