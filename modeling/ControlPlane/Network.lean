/-
The physical network: nodes with their ports, and links between ports. A link leaves one port and
may lead to several; its identity is the port it leaves together with its ID, so one port may have
several links.
-/
import ControlPlane.Address.Mac
import ControlPlane.Uid

namespace ControlPlane

/-! ## Ports and nodes -/

/-- The state of a port. -/
inductive PortState where
  | unknown
  | down
  | up
  | blocked
deriving DecidableEq, Repr, Inhabited

/-- A port of a node. -/
structure Port where
  /-- The ID of the port, unique within its node. -/
  id : String
  node : Uid
  /-- The link that leaves the port, if one is known. -/
  link : Option Uid := none
  state : PortState := .unknown
deriving DecidableEq, Repr

def Port.uid (p : Port) : Uid := .join [p.node.text, p.id]

/-- A forwarding element, such as a switch. -/
structure Node where
  id : String
  mac : MacAddr := 0
  ports : List Port := []
deriving DecidableEq, Repr

namespace Node

def uid (n : Node) : Uid := ⟨n.id⟩

/-- The node with one more port. -/
def withPort (n : Node) (id : String) : Node :=
  { n with ports := n.ports ++ [{ id, node := n.uid }] }

def describe (n : Node) : String :=
  "Node " ++ n.id ++ " (mac=" ++ MacAddr.describe n.mac ++ ", " ++ Numeral.decimal n.ports.length ++
    " ports)"

end Node

/-! ## Links -/

/-- The state of a link. -/
inductive LinkState where
  | unknown
  | up
  | down
deriving DecidableEq, Repr, Inhabited

/-- A directed connection from a port to one or more ports. -/
structure Link where
  /-- The ID of the link, unique among the links that leave the same port. -/
  id : String
  origin : Uid
  targets : List Uid
  state : LinkState
deriving DecidableEq, Repr

namespace Link

/-- The working link with ID `0` from one port to another. -/
def between (origin target : Uid) : Link := ⟨"0", origin, [target], .up⟩

def uid (l : Link) : Uid := .join [l.origin.text, l.id]

/-- Both links leave the same port and have the same ID. -/
def sameIdentity (a b : Link) : Bool := a.origin == b.origin && a.id == b.id

/-- The first port that the link leads to. -/
def peer? (l : Link) : Option Uid := l.targets.head?

def describe (l : Link) : String :=
  l.origin.text ++ " -> [" ++ ", ".intercalate (l.targets.map Uid.text) ++ "]"

end Link

/-! ## JSON forms -/

instance : JsonForm PortState where
  toJson
    | .unknown => .string "Unknown"
    | .down => .string "Down"
    | .up => .string "Up"
    | .blocked => .string "Blocked"
  ofJson? v :=
    match v.variant? with
    | some ("Unknown", content) => Json.bare? .unknown content
    | some ("Down", content) => Json.bare? .down content
    | some ("Up", content) => Json.bare? .up content
    | some ("Blocked", content) => Json.bare? .blocked content
    | _ => none

instance : JsonForm Port where
  toJson p := .object
    [("id", toJson p.id), ("node", toJson p.node), ("link", toJson p.link), ("state", toJson p.state)]
  ofJson? v := do
    let [id, node, link, state] ← v.columns? ["id", "node", "link", "state"] | none
    return {
      id := ← Json.required? id
      node := ← Json.required? node
      link := ← Json.orDefault? none link
      state := ← Json.orDefault? .unknown state }

instance : JsonForm Node where
  toJson n := .object [("id", toJson n.id), ("mac_addr", toJson n.mac), ("ports", toJson n.ports)]
  ofJson? v := do
    let [id, mac, ports] ← v.columns? ["id", "mac_addr", "ports"] | none
    return {
      id := ← Json.required? id
      mac := ← Json.orDefault? 0 mac
      ports := ← Json.orDefault? [] ports }

instance : JsonForm LinkState where
  toJson
    | .unknown => .string "Unknown"
    | .up => .string "Up"
    | .down => .string "Down"
  ofJson? v :=
    match v.variant? with
    | some ("Unknown", content) => Json.bare? .unknown content
    | some ("Up", content) => Json.bare? .up content
    | some ("Down", content) => Json.bare? .down content
    | _ => none

instance : JsonForm Link where
  toJson l := .object
    [("id", toJson l.id), ("from", toJson l.origin), ("to", toJson l.targets), ("state", toJson l.state)]
  ofJson? v := do
    let [id, origin, targets, state] ← v.columns? ["id", "from", "to", "state"] | none
    return {
      id := ← Json.orDefault? "" id
      origin := ← Json.required? origin
      targets := ← Json.required? targets
      state := ← Json.orDefault? .unknown state }

end ControlPlane
