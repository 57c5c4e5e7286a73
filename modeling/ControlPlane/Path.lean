/-
Paths: what traffic is to be sent along which way, without naming the nodes between. A path is a
sequence of pathlets, each of which takes traffic up to the ports that its actions forward to.
-/
import ControlPlane.Action

namespace ControlPlane

/-- One hop of a path. -/
structure Pathlet where
  pattern : Match
  /-- In-ports that are not to be used. -/
  exclude : List Uid := []
  /-- What is done at the end of the hop. -/
  actions : List Action
deriving DecidableEq, Repr

/-- A sequence of pathlets. -/
structure Path where
  /-- The ID that the path gets when it is accepted. -/
  id : String := ""
  /-- The priority of all flow entries of the path. -/
  priority : UInt16
  pathlets : List Pathlet
deriving DecidableEq, Repr

/-- The priority of a path that names none. -/
def Path.defaultPriority : UInt16 := 1

/-- The path without pathlets. -/
def Path.empty : Path := { priority := Path.defaultPriority, pathlets := [] }

instance : JsonForm Pathlet where
  toJson p := .object
    [("pattern", toJson p.pattern), ("exclude", toJson p.exclude), ("actions", toJson p.actions)]
  ofJson? v := do
    let [pattern, exclude, actions] ← v.columns? ["pattern", "exclude", "actions"] | none
    return {
      pattern := ← Json.required? pattern
      exclude := ← Json.orDefault? [] exclude
      actions := ← Json.required? actions }

instance : JsonForm Path where
  toJson p := .object
    [("id", toJson p.id), ("priority", toJson p.priority), ("pathlets", toJson p.pathlets)]
  ofJson? v := do
    let [id, priority, pathlets] ← v.columns? ["id", "priority", "pathlets"] | none
    return {
      id := ← Json.orDefault? "" id
      priority := ← Json.required? priority
      pathlets := ← Json.required? pathlets }

end ControlPlane
