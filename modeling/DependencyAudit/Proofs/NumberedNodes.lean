/-
# DependencyAudit.Proofs.NumberedNodes -- every class is one node

While a graph is built, the names by number and the numbers by name stay two views of one
numbering (`Numbered`).  Taking up a name changes neither the numbers given so far nor the
edges, and adds at most the node of that name (`takes_node`); so after an edge is added there is
one edge more, between the nodes of its names, and still no node that no edge leads from or to
(`Builds.addEdge`), and as many nodes as the edges have names (`nodeCount_numbered`).
-/
import Mathlib.Data.List.Nodup
import DependencyAudit.NumberedGraph
import DependencyAudit.Proofs.GraphReports
import DependencyAudit.Proofs.Outcome

namespace DependencyAudit

set_option autoImplicit false

namespace NumberedGraph

/-! ## Numbers and names -/

/-- The numbers by name are those of the names by number. -/
def Numbered (graph : NumberedGraph) : Prop :=
  ∀ name number, graph.numbers.get? name = some number ↔ graph.names[number]? = some name

/-- Nodes have distinct names. -/
theorem Numbered.nodup {graph : NumberedGraph} (numbered : graph.Numbered) :
    graph.names.Nodup := by
  rw [List.nodup_iff_injective_get]
  intro first second same
  have one := (numbered _ first).mpr (List.getElem?_eq_getElem first.isLt)
  have other := (numbered _ second).mpr (List.getElem?_eq_getElem second.isLt)
  rw [← List.get_eq_getElem, same, List.get_eq_getElem] at one
  exact Fin.ext (Option.some.inj (one.symm.trans other))

/-- What taking up a name leads to: a graph in which it has a number. -/
structure Takes (graph : NumberedGraph) (name : String) (after : NumberedGraph) (number : Nat) :
    Prop where
  numbered : after.Numbered
  kept : graph.names <+: after.names
  named : after.names[number]? = some name
  edges : after.edges = graph.edges
  added : ∀ other, other < after.names.length → other < graph.names.length ∨ other = number

theorem takes_node {graph : NumberedGraph} (numbered : graph.Numbered) (name : String) :
    Takes graph name (graph.node name).1 (graph.node name).2 := by
  cases known : graph.numbers.get? name with
  | some number =>
      rw [node_of_known known]
      exact ⟨numbered, List.prefix_rfl, (numbered name number).mp known, rfl, fun _ => .inl⟩
  | none =>
      rw [node_of_new known]
      refine ⟨fun other number => ?_, List.prefix_append _ _, by simp, rfl, fun other below => ?_⟩
      · by_cases same : other = name
        · -- The name is new, so it stands nowhere in front of its own place.
          subst same
          have new : ∀ place : Nat, graph.names[place]? ≠ some other := by
            intro place found
            rw [← numbered, known] at found
            cases found
          dsimp only
          rw [Assoc.insert, Assoc.get?_update_self, Option.some.injEq]
          constructor
          · rintro rfl
            simp
          · intro found
            rcases Nat.lt_trichotomy number graph.names.length with below | equal | above
            · rw [List.getElem?_append_left below] at found
              exact absurd found (new number)
            · exact equal.symm
            · rw [List.getElem?_eq_none (by simp; omega)] at found
              cases found
        · dsimp only
          rw [Assoc.insert, Assoc.get?_update_of_ne _ _ same, numbered]
          rcases Nat.lt_or_ge number graph.names.length with below | atEnd
          · rw [List.getElem?_append_left below]
          · rw [List.getElem?_append_right atEnd, List.getElem?_eq_none atEnd]
            simp [List.getElem?_singleton, Ne.symm same]
      · simp only [List.length_append, List.length_singleton] at below
        omega

/-! ## Edges -/

/-- A pair of numbers leads between the nodes of two names. -/
def Leads (names : List String) (edge : Nat × Nat) (reference : Reference) : Prop :=
  names[edge.1]? = some reference.source ∧ names[edge.2]? = some reference.target

theorem getElem?_of_kept {names more : List String} (kept : names <+: more) {number : Nat}
    {name : String} (found : names[number]? = some name) : more[number]? = some name := by
  obtain ⟨rest, rfl⟩ := kept
  rw [List.getElem?_append_left (List.getElem?_eq_some_iff.mp found).1, found]

theorem Leads.mono {names more : List String} (kept : names <+: more) {edge : Nat × Nat}
    {reference : Reference} (leads : Leads names edge reference) : Leads more edge reference :=
  ⟨getElem?_of_kept kept leads.1, getElem?_of_kept kept leads.2⟩

/-- A node that an edge leads from or to. -/
def Reached (edges : List (Nat × Nat)) (number : Nat) : Prop :=
  ∃ edge ∈ edges, edge.1 = number ∨ edge.2 = number

/-- A graph that was built from some edges. -/
structure Builds (graph : NumberedGraph) (references : List Reference) : Prop where
  numbered : graph.Numbered
  leads : List.Forall₂ (Leads graph.names) graph.edges references
  reached : ∀ number, number < graph.names.length → Reached graph.edges number

theorem builds_empty : Builds empty [] where
  numbered := by simp [Numbered, empty, Assoc.get?, Assoc.empty]
  leads := .nil
  reached := by simp [empty]

/-- Another edge leads between the nodes of its names, and reaches the nodes that it adds. -/
theorem Builds.addEdge {references : List Reference} {graph : NumberedGraph}
    (builds : graph.Builds references) (reference : Reference) :
    (graph.addEdge reference).Builds (references ++ [reference]) := by
  have sourced := takes_node builds.numbered reference.source
  have targeted := takes_node sourced.numbered reference.target
  have kept := sourced.kept.trans targeted.kept
  have edges := targeted.edges.trans sourced.edges
  refine ⟨targeted.numbered, ?_, fun number below => ?_⟩
  · simp only [NumberedGraph.addEdge, edges]
    refine List.rel_append (builds.leads.imp fun _ _ => Leads.mono kept) (.cons ?_ .nil)
    exact ⟨getElem?_of_kept targeted.kept sourced.named, targeted.named⟩
  · simp only [NumberedGraph.addEdge, edges]
    rcases targeted.added number below with before | rfl
    · rcases sourced.added number before with before | rfl
      · obtain ⟨edge, member, ends⟩ := builds.reached number before
        exact ⟨edge, List.mem_append_left _ member, ends⟩
      · exact ⟨_, List.mem_append_right _ List.mem_cons_self, .inl rfl⟩
    · exact ⟨_, List.mem_append_right _ List.mem_cons_self, .inr rfl⟩

theorem builds_ofEdges (references : List Reference) :
    (ofEdges references).Builds references := by
  induction references using List.reverseRecOn with
  | nil => exact builds_empty
  | append_singleton before reference builds =>
      rw [ofEdges, List.foldl_append]
      exact builds.addEdge reference

/-! ## What a graph holds -/

/-- The nodes are the ends of the edges. -/
theorem Builds.mem_names_iff {references : List Reference} {graph : NumberedGraph}
    (builds : graph.Builds references) {name : String} :
    name ∈ graph.names ↔ ∃ reference ∈ references,
      reference.source = name ∨ reference.target = name := by
  constructor
  · intro member
    obtain ⟨number, below, named⟩ := List.mem_iff_getElem.mp member
    have found := List.getElem?_eq_some_iff.mpr ⟨below, named⟩
    obtain ⟨edge, among, ends⟩ := builds.reached number below
    obtain ⟨reference, listed, leads⟩ := Outcome.exists_right_of_forall₂ builds.leads edge among
    refine ⟨reference, listed, ends.imp ?_ ?_⟩
    · rintro rfl
      exact Option.some.inj (leads.1.symm.trans found)
    · rintro rfl
      exact Option.some.inj (leads.2.symm.trans found)
  · rintro ⟨reference, listed, ends⟩
    obtain ⟨edge, _, leads⟩ := Outcome.exists_left_of_forall₂ builds.leads reference listed
    rcases ends with rfl | rfl
    · exact List.mem_of_getElem? leads.1
    · exact List.mem_of_getElem? leads.2

end NumberedGraph

/-- There are as many nodes as classes. -/
theorem ReferenceGraph.nodeCount_numbered (graph : ReferenceGraph) :
    graph.numbered.nodeCount = graph.nodeCount := by
  have builds : graph.numbered.Builds graph.edges := NumberedGraph.builds_ofEdges graph.edges
  have same : (graph.edges.flatMap fun edge => [edge.source, edge.target]).toFinset =
      graph.numbered.names.toFinset := by
    ext name
    rw [List.mem_toFinset, List.mem_toFinset, builds.mem_names_iff]
    simp [eq_comm]
  rw [ReferenceGraph.nodeCount, nodes, NameSet.size_ofList, same,
    List.toFinset_card_of_nodup builds.numbered.nodup, NumberedGraph.nodeCount]

end DependencyAudit
