/-
Building a topology by connecting nodes. Every node numbers its ports from one, in the order in
which they are used, and a connection is a link in each direction between two new ports. A
connection that fails has used up its ports all the same.
-/
import ControlPlane.Topology.Graph

namespace ControlPlane

/-- A topology under construction. -/
structure Builder where
  graph : Graph
  /-- The number of the next port of each node that has ports. -/
  nextPort : SortedMap String Nat

namespace Builder

def empty : Builder := ⟨.empty, .empty⟩

/-- A new port of a node. -/
def port (b : Builder) (node : String) : Uid × Builder :=
  let number := (b.nextPort.get? node).getD 1
  (.join [node, Numeral.decimal number], { b with nextPort := b.nextPort.insert node (number + 1) })

/-- Connects two nodes in both directions. -/
def connect (b : Builder) (node other : String) : Except GraphError Unit × Builder :=
  let (p, b) := b.port node
  let (q, b) := b.port other
  match b.graph.addLink (.between p q) with
  | (.error e, graph) => (.error e, { b with graph })
  | (.ok (), graph) =>
    let (result, graph) := graph.addLink (.between q p)
    (result, { b with graph })

/-- Connects pairs of nodes one after the other, up to the first failure. -/
def connectAll (b : Builder) : List (String × String) → Except GraphError Builder
  | [] => .ok b
  | (node, other) :: pairs =>
    match b.connect node other with
    | (.ok (), b) => b.connectAll pairs
    | (.error e, _) => .error e

end Builder

/-- The topology of the given connections. -/
def Graph.ofConnections (pairs : List (String × String)) : Except GraphError Graph :=
  (Builder.empty.connectAll pairs).map Builder.graph

end ControlPlane
