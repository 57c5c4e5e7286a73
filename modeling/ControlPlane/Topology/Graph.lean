/-
The topology: the links that were discovered, recorded at the node they leave and grouped by the
node they lead to. A link to ports of several nodes is recorded once for each of them, narrowed to
the ports of that node.

Adding a link replaces the records of the same identity, and is refused without a change if a port
is malformed, if there is no target, or if a target is on the node that the link leaves.
-/
import ControlPlane.Dict
import ControlPlane.Network

namespace ControlPlane

/-- The links that leave a node, grouped by the node they lead to. -/
abbrev Adjacency := SortedMap Uid (List Link)

/-- The topology of the network. -/
structure Graph where
  /-- The adjacency of each node, under the text of its UID. -/
  adjacency : Dict Adjacency

/-- Why the topology refuses an operation. -/
inductive GraphError where
  /-- A port of the link is malformed. -/
  | malformedLink (cause : Uid.Error)
  | noDestination (link : Uid)
  /-- The link leads back to the node it leaves. -/
  | selfLoop (link node : Uid)
  /-- A search came to a node by a shorter way than the one it is recorded with. -/
  | invalidDistance (node : Uid) (recorded reached : Nat)
deriving DecidableEq, Repr

def GraphError.message : GraphError → String
  | .malformedLink cause => "Malformed link: " ++ cause.message
  | .noDestination link => "Link " ++ link.text ++ " has no destination"
  | .selfLoop link node => "Link " ++ link.text ++ " is a loop on node " ++ node.text
  | .invalidDistance node recorded reached =>
    "Invalid distance in shortest path search: node " ++ node.text ++ " recorded at " ++
      Numeral.decimal recorded ++ ", reached at " ++ Numeral.decimal reached

namespace Graph

/-- The name of the dict that holds the adjacency. -/
def dictName : String := "NetGraph"

def empty : Graph := ⟨.empty dictName⟩

instance : Inhabited Graph := ⟨empty⟩

/-! ## What is recorded -/

/-- The links that leave a node, grouped by destination. -/
def outgoing (g : Graph) (node : Uid) : Adjacency := (g.adjacency.get? node.text).getD .empty

/-- The links of an adjacency, each with the node it leads to. -/
def hopsOf (a : Adjacency) : List (Uid × Link) :=
  a.entries.flatMap fun e => e.2.map (e.1, ·)

/-- The links that leave a node, each with the node it leads to. -/
def neighbors (g : Graph) (node : Uid) : List (Uid × Link) := hopsOf (g.outgoing node)

/-- The links that leave a node. -/
def links (g : Graph) (node : Uid) : List Link := (g.neighbors node).map (·.2)

/-- The links from one node to another. -/
def linksBetween (g : Graph) (origin target : Uid) : List Link :=
  ((g.outgoing origin).get? target).getD []

/-- All recorded links, each with the node it leads to. -/
def hops (g : Graph) : List (Uid × Link) := g.adjacency.toList.flatMap fun e => hopsOf e.2

/-- All recorded links. -/
def allLinks (g : Graph) : List Link := g.hops.map (·.2)

/-- The nodes that links leave. -/
def nodes (g : Graph) : List Uid := g.adjacency.keys.map Uid.mk

/-- Whether a recorded link leaves the port. -/
def hasLinkFrom (g : Graph) (port : Uid) : Bool :=
  match port.nodeOfPort with
  | .ok node => (g.links node).any fun l => l.origin == port
  | .error _ => false

/-- The number of recorded links. -/
def numLinks (g : Graph) : Nat := g.allLinks.length

/-! ## Removing -/

/-- The adjacency without the records of a link's identity and without empty groups. -/
def withoutLink (a : Adjacency) (link : Link) : Adjacency :=
  a.filterMap fun _ links =>
    let others := links.filter fun l => !l.sameIdentity link
    if others.isEmpty then none else some others

/-- Whether an adjacency records a link of the same identity. -/
def records (a : Adjacency) (link : Link) : Bool :=
  a.values.any fun links => links.any fun l => l.sameIdentity link

/-- Drops the records of a link's identity at a node, and the node if nothing is left. -/
def discard (g : Graph) (origin : Uid) (link : Link) : Graph :=
  match g.adjacency.get? origin.text with
  | none => g
  | some a =>
    let rest := withoutLink a link
    ⟨if rest.isEmpty then g.adjacency.erase origin.text else g.adjacency.insert origin.text rest⟩

/-- Removes a link, and tells whether it was recorded. -/
def removeLink (g : Graph) (link : Link) : Except GraphError Bool × Graph :=
  match link.origin.nodeOfPort with
  | .error e => (.error (.malformedLink e), g)
  | .ok origin => (.ok (records (g.outgoing origin) link), g.discard origin link)

/-! ## Adding -/

/-- Puts a target port to the ports of its node. -/
def groupTarget (link : Link) (origin : Uid) (groups : SortedMap Uid (List Uid)) (port : Uid) :
    Except GraphError (SortedMap Uid (List Uid)) :=
  match port.nodeOfPort with
  | .error e => .error (.malformedLink e)
  | .ok node =>
    if node = origin then .error (.selfLoop link.uid origin)
    else .ok (groups.insert node ((groups.get? node).getD [] ++ [port]))

/-- The target ports of a link that leaves `origin`, grouped by node. -/
def targetGroups (link : Link) (origin : Uid) : Except GraphError (SortedMap Uid (List Uid)) :=
  if link.targets.isEmpty then .error (.noDestination link.uid)
  else link.targets.foldlM (groupTarget link origin) .empty

/-- The adjacency with a link recorded once for each group of target ports. -/
def withLink (a : Adjacency) (link : Link) (groups : SortedMap Uid (List Uid)) : Adjacency :=
  groups.entries.foldl
    (fun a group => a.insert group.1 ((a.get? group.1).getD [] ++ [{ link with targets := group.2 }])) a

/-- Records a link in place of those of the same identity. A link that is refused is refused before any of them
is removed. -/
def addLink (g : Graph) (link : Link) : Except GraphError Unit × Graph :=
  match link.origin.nodeOfPort with
  | .error e => (.error (.malformedLink e), g)
  | .ok origin =>
    match targetGroups link origin with
    | .error e => (.error e, g)
    | .ok groups =>
      let g := g.discard origin link
      (.ok (), ⟨g.adjacency.insert origin.text (withLink (g.outgoing origin) link groups)⟩)

end Graph

end ControlPlane
