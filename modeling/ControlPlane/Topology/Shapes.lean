/-
Well-known topologies. Nodes are named `n1`, `n2` and so on; links come in pairs, one for each
direction.
-/
import ControlPlane.Random.Probability
import ControlPlane.Topology.Builder

namespace ControlPlane.Topology

/-- The name of a node, counted from one. -/
def nodeName (i : Nat) : String := "n" ++ Numeral.decimal i

/-- The connections of a line: each node with the next one. -/
def linePairs (n : Nat) : List (String × String) :=
  (List.range (n - 1)).map fun i => (nodeName (i + 1), nodeName (i + 2))

/-- Nodes in a line. -/
def line (n : Nat) : Except GraphError Graph := Graph.ofConnections (linePairs n)

/-- Nodes in a ring; up to two nodes are a line. -/
def ring (n : Nat) : Except GraphError Graph :=
  Graph.ofConnections (linePairs n ++ if n > 2 then [(nodeName n, nodeName 1)] else [])

/-- The name of the node in a row and a column of a grid. -/
def gridName (width row column : Nat) : String := nodeName (row * width + column + 1)

/-- The connections of a grid node to the right and down. -/
def gridPairs (width height row column : Nat) : List (String × String) :=
  (if column + 1 < width then [(gridName width row column, gridName width row (column + 1))] else []) ++
    if row + 1 < height then [(gridName width row column, gridName width (row + 1) column)] else []

/-- Nodes in rows and columns, numbered row by row. -/
def grid (width height : Nat) : Except GraphError Graph :=
  Graph.ofConnections <| (List.range height).flatMap fun row =>
    (List.range width).flatMap fun column => gridPairs width height row column

/-- The pairs of different nodes in order. -/
def allPairs (n : Nat) : List (String × String) :=
  (List.range n).flatMap fun i =>
    (List.range (n - (i + 1))).map fun j => (nodeName (i + 1), nodeName (i + j + 2))

/-- The pairs for which a draw succeeds. -/
def drawPairs (p : Random.Probability) : Random.Stream → List (String × String) → List (String × String)
  | _, [] => []
  | s, pair :: pairs =>
    let (chosen, s) := s.draw p
    if chosen then pair :: drawPairs p s pairs else drawPairs p s pairs

/-- Nodes of which each pair is connected with a probability. -/
def random (n : Nat) (p : Random.Probability) (seed : UInt64) : Except GraphError Graph :=
  Graph.ofConnections (drawPairs p (.ofSeed seed) (allPairs n))

/-- Two ways from `n1` to `n4` without a node in common. -/
def disjointRoutes : Except GraphError Graph :=
  Graph.ofConnections [("n1", "n2"), ("n2", "n4"), ("n1", "n3"), ("n3", "n4")]

/-- Records a link in each direction between two ports. -/
def addBoth (g : Graph) (ports : String × String) : Except GraphError Graph :=
  match g.addLink (.between ⟨ports.1⟩ ⟨ports.2⟩) with
  | (.error e, _) => .error e
  | (.ok (), g) =>
    match g.addLink (.between ⟨ports.2⟩ ⟨ports.1⟩) with
    | (.error e, _) => .error e
    | (.ok (), g) => .ok g

/-- Two branches of nodes that meet at `n6`, with fixed ports. -/
def twoBranches : Except GraphError Graph :=
  [("n1$$1", "n2$$1"), ("n2$$2", "n4$$1"), ("n3$$2", "n5$$1"), ("n4$$2", "n6$$1"),
    ("n5$$2", "n6$$2")].foldlM addBoth .empty

end ControlPlane.Topology
