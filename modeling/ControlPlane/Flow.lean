/-
Flow entries: the rules installed on single nodes. Entries are compared by what they do, so their
IDs and timeouts do not count.
-/
import ControlPlane.Action
import ControlPlane.Time

namespace ControlPlane

/-- A rule installed on a node. -/
structure FlowEntry where
  /-- The ID that ties the entry to a path. -/
  id : String := ""
  node : Uid
  pattern : Match
  actions : List Action
  priority : UInt16
  /-- How long the entry stays without matching a packet; zero is forever. -/
  idleTimeout : Duration := .zero
  /-- How long the entry stays at all; zero is forever. -/
  hardTimeout : Duration := .zero
deriving DecidableEq, Repr

namespace FlowEntry

/-- The entries are on the same node, with the same priority and equal actions. -/
def sameTarget (a b : FlowEntry) : Bool :=
  a.node == b.node && a.priority == b.priority && Action.listEquals a.actions b.actions

/-- The entries have the same target and equal matches. -/
def equals (a b : FlowEntry) : Bool := a.sameTarget b && a.pattern.equals b.pattern

/-- The entries have the same target, and the match of the first subsumes that of the second. -/
def subsumes (a b : FlowEntry) : Bool := a.sameTarget b && a.pattern.subsumes b.pattern

def describe (f : FlowEntry) : String :=
  f.node.text ++ " [" ++ f.id ++ "] prio " ++ Numeral.decimal f.priority.toNat ++ ": " ++
    f.pattern.describe ++ " => " ++ ", ".intercalate (f.actions.map Action.describe)

end FlowEntry

instance : JsonForm FlowEntry where
  toJson f := .object
    [("id", toJson f.id), ("node", toJson f.node), ("pattern", toJson f.pattern),
      ("actions", toJson f.actions), ("priority", toJson f.priority),
      ("idle_timeout", toJson f.idleTimeout), ("hard_timeout", toJson f.hardTimeout)]
  ofJson? v := do
    let [id, node, pattern, actions, priority, idle, hard] ← v.columns?
      ["id", "node", "pattern", "actions", "priority", "idle_timeout", "hard_timeout"] | none
    return {
      id := ← Json.orDefault? "" id
      node := ← Json.required? node
      pattern := ← Json.required? pattern
      actions := ← Json.required? actions
      priority := ← Json.required? priority
      idleTimeout := ← Json.orDefault? .zero idle
      hardTimeout := ← Json.orDefault? .zero hard }

end ControlPlane
