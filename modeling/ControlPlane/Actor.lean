/-
Actors: who asks for a path, and where confirmations are sent. An actor is a key within an
application.
-/
import ControlPlane.Json.Form

namespace ControlPlane

/-- A reference to a key of an application. -/
structure ActorRef where
  app : String
  key : String
deriving DecidableEq, Repr

def ActorRef.describe (a : ActorRef) : String := a.app ++ "/" ++ a.key

instance : JsonForm ActorRef where
  toJson a := .object [("app", toJson a.app), ("key", toJson a.key)]
  ofJson? v := do
    let [app, key] ← v.columns? ["app", "key"] | none
    return ⟨← Json.required? app, ← Json.required? key⟩

end ControlPlane
