/-
# DependencyAudit.NumberedGraph -- graphs with numbered nodes

A graph is built edge by edge.  A class gets a number when an edge first names it
(`node_of_new`), and keeps it (`node_of_known`), so that every class is one node, and an edge is
a pair of numbers.
-/
import DependencyAudit.Assoc
import DependencyAudit.ReferenceGraph

namespace DependencyAudit

set_option autoImplicit false

/-- A graph with numbered nodes. -/
structure NumberedGraph where
  /-- The names of the nodes, by number. -/
  names : List String
  /-- The numbers of the nodes, by name. -/
  numbers : Assoc String Nat
  /-- The edges, in order, repetitions included. -/
  edges : List (Nat × Nat)

namespace NumberedGraph

def empty : NumberedGraph := ⟨[], .empty, []⟩

/-- The number of a name, which is the next one if the name is new. -/
def node (graph : NumberedGraph) (name : String) : NumberedGraph × Nat :=
  match graph.numbers.get? name with
  | some number => (graph, number)
  | none =>
      ({ graph with
          names := graph.names ++ [name]
          numbers := graph.numbers.insert name graph.names.length }, graph.names.length)

/-- Adds an edge, its source first. -/
def addEdge (graph : NumberedGraph) (edge : Reference) : NumberedGraph :=
  let (sourced, source) := graph.node edge.source
  let (targeted, target) := sourced.node edge.target
  { targeted with edges := targeted.edges ++ [(source, target)] }

/-- The graph of some edges. -/
def ofEdges (edges : List Reference) : NumberedGraph :=
  edges.foldl addEdge empty

def nodeCount (graph : NumberedGraph) : Nat :=
  graph.names.length

/-! ## Facts -/

theorem node_of_known {graph : NumberedGraph} {name : String} {number : Nat}
    (known : graph.numbers.get? name = some number) : graph.node name = (graph, number) := by
  rw [node, known]

theorem node_of_new {graph : NumberedGraph} {name : String}
    (new : graph.numbers.get? name = none) :
    graph.node name =
      ({ graph with
          names := graph.names ++ [name]
          numbers := graph.numbers.insert name graph.names.length }, graph.names.length) := by
  rw [node, new]

end NumberedGraph

/-- The references of a report as a graph with numbered nodes. -/
def ReferenceGraph.numbered (graph : ReferenceGraph) : NumberedGraph :=
  .ofEdges graph.edges

end DependencyAudit
