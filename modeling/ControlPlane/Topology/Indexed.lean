/-
The topology as a graph with numbered nodes, and its drawing as a DOT text. Nodes are numbered in
the order in which they are met: every origin in order, followed by the nodes that its links lead
to. Every recorded link is an edge.
-/
import ControlPlane.Topology.Graph

namespace ControlPlane

/-- An edge between two numbered nodes. -/
structure Edge where
  source : Nat
  target : Nat
  link : Link
deriving DecidableEq, Repr

/-- A graph whose nodes are numbered from zero. -/
structure IndexedGraph where
  /-- The nodes in the order of their numbers. -/
  nodes : List Uid
  indices : SortedMap Uid Nat
  /-- The edges in the order in which they were added. -/
  edges : List Edge

namespace IndexedGraph

def empty : IndexedGraph := ⟨[], .empty, []⟩

/-- The number of a node, which is added if it is new. -/
def intern (g : IndexedGraph) (node : Uid) : Nat × IndexedGraph :=
  match g.indices.get? node with
  | some i => (i, g)
  | none =>
    (g.nodes.length,
      { g with nodes := g.nodes ++ [node], indices := g.indices.insert node g.nodes.length })

/-- The graph with an edge for a link from a numbered node. -/
def addHop (source : Nat) (g : IndexedGraph) (hop : Uid × Link) : IndexedGraph :=
  let (target, g) := g.intern hop.1
  { g with edges := g.edges ++ [⟨source, target, hop.2⟩] }

/-- The graph with a node and the edges of the links that leave it. -/
def addOrigin (topology : Graph) (g : IndexedGraph) (origin : Uid) : IndexedGraph :=
  let (source, g) := g.intern origin
  (topology.neighbors origin).foldl (addHop source) g

/-! ## Drawing -/

/-- A character as it stands in a label: quotes and backslashes are escaped, and a line ends in `\l`. -/
def labelChar : Char → List Char
  | '"' => ['\\', '"']
  | '\\' => ['\\', '\\']
  | '\n' => ['\\', 'l']
  | c => [c]

/-- The text of a label between its quotes. -/
def label (s : String) : String := String.ofList (s.toList.flatMap labelChar)

/-- The line that draws a node. -/
def nodeLine (index : Nat) (node : Uid) : String :=
  "    " ++ Numeral.decimal index ++ " [ label = \"" ++ label node.text ++ "\" ]\n"

/-- The line that draws an edge. -/
def edgeLine (e : Edge) : String :=
  "    " ++ Numeral.decimal e.source ++ " -> " ++ Numeral.decimal e.target ++ " [ label = \"" ++
    label e.link.describe ++ "\" ]\n"

/-- The graph as a DOT text. -/
def toDot (g : IndexedGraph) : String :=
  "digraph \x7b\n" ++ "".intercalate (g.nodes.zipIdx.map fun n => nodeLine n.2 n.1) ++
    "".intercalate (g.edges.map edgeLine) ++ "\x7d\n"

end IndexedGraph

/-- The topology with numbered nodes. -/
def Graph.indexed (g : Graph) : IndexedGraph :=
  g.nodes.foldl (IndexedGraph.addOrigin g) .empty

/-- The topology as a DOT text. -/
def Graph.toDot (g : Graph) : String := g.indexed.toDot

end ControlPlane
