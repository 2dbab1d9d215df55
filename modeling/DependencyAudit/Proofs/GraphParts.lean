/-
# DependencyAudit.Proofs.GraphParts -- a report is read part by part

No line of a report bears on another, so a report that is cut behind the end of a line is read
as its parts are: it has the edges of both, and its first fault is that of the first part, or
else that of the second part, as many lines further down as the first part has
(`ofText_append`).

What is taken from a line are clean names: blank at no place, since a name that has a blank is
refused, and without quotes, since all of them are left out (`clean_of_nodeName?`).  So the
nodes of every graph that is read are named cleanly, each by a name of its own
(`clean_of_ofText`).
-/
import Mathlib.Data.List.Basic
import DependencyAudit.Proofs.NumberedNodes

namespace DependencyAudit

open Text

set_option autoImplicit false

/-- The same fault further down. -/
def GraphError.below (lines : Nat) (error : GraphError) : GraphError :=
  { error with line := lines + error.line }

namespace ReferenceGraph

/-! ## Parts -/

/-- Lines further down are read alike. -/
theorem ofLines_add (above number : Nat) :
    ∀ lines : List (List Char),
      ofLines (above + number) lines = (ofLines number lines).mapError (GraphError.below above)
  | [] => rfl
  | line :: rest => by
      rw [ofLines, ofLines, Nat.add_assoc, ofLines_add above (number + 1) rest]
      cases ofLine line with
      | error fault => rfl
      | ok edges => cases ofLines (number + 1) rest <;> rfl

/-- A report has the edges of its parts, or else the first fault of the first part that has
one. -/
theorem ofText_append {a : List Char} (ended : Ended a) (b : List Char) :
    ofText (a ++ b) =
      match ofText a with
      | .error error => .error error
      | .ok first =>
          match ofText b with
          | .error error => .error (error.below (a.count '\n'))
          | .ok second => .ok ⟨first.edges ++ second.edges⟩ := by
  rw [ofText, ofText, ofText, lines_append_of_ended ended, ofLines_append, Nat.add_comm 1,
    length_lines_of_ended ended, ofLines_add]
  cases ofLines 1 (lines a) with
  | error error => rfl
  | ok edges => cases ofLines 1 (lines b) <;> rfl

/-! ## Names -/

/-- A name that is taken from a line. -/
structure Clean (name : String) : Prop where
  filled : name.toList ≠ []
  solid : ∀ c ∈ name.toList, isBlank c = false
  unquoted : '"' ∉ name.toList

theorem clean_of_nodeName? {side : List Char} {name : String}
    (named : nodeName? side = some name) : Clean name := by
  unfold nodeName? at named
  simp only [Option.ite_none_left_eq_some, Option.some.injEq] at named
  obtain ⟨kept, rfl⟩ := named
  rw [Bool.or_eq_true, not_or, List.isEmpty_iff, List.any_eq_true] at kept
  refine ⟨?_, ?_, ?_⟩ <;> rw [String.toList_ofList]
  · exact kept.1
  · intro c member
    exact Bool.eq_false_of_not_eq_true fun blank => kept.2 ⟨c, member, blank⟩
  · intro member
    have among := List.mem_filter.mp (mem_of_mem_trimBy member)
    simp at among

/-- The edge of a line leads between clean names. -/
theorem clean_of_ofTrimmedLine {line : List Char} {edges : List Reference}
    (read : ofTrimmedLine line = .ok edges) :
    ∀ edge ∈ edges, Clean edge.source ∧ Clean edge.target := by
  unfold ofTrimmedLine at read
  split at read
  · cases read
    simp
  · split at read
    · split at read
      · cases read
        simp
      · cases read
    · split at read
      · split at read
        · cases read
        · cases read
        · rename_i source target sourceNamed targetNamed
          cases read
          simpa using ⟨clean_of_nodeName? sourceNamed, clean_of_nodeName? targetNamed⟩
      · split at read
        · cases read
          simp
        · cases read

theorem clean_of_ofLines :
    ∀ {lines : List (List Char)} {number : Nat} {edges : List Reference},
      ofLines number lines = .ok edges → ∀ edge ∈ edges, Clean edge.source ∧ Clean edge.target
  | [], _, _, read => by
      cases read
      simp
  | line :: rest, number, edges, read => by
      rw [ofLines] at read
      cases first : ofLine line with
      | error fault =>
          rw [first] at read
          cases read
      | ok own =>
          cases others : ofLines (number + 1) rest with
          | error error =>
              rw [first, others] at read
              cases read
          | ok more =>
              rw [first, others] at read
              cases read
              intro edge member
              rcases List.mem_append.mp member with here | below
              · exact clean_of_ofTrimmedLine first edge here
              · exact clean_of_ofLines others edge below

/-- The nodes of a graph that is read have clean names. -/
theorem clean_of_ofText {text : List Char} {graph : ReferenceGraph}
    (read : ofText text = .ok graph) : ∀ name ∈ graph.numbered.names, Clean name := by
  obtain ⟨edges, ofEdges, rfl⟩ := Outcome.map_eq_ok.mp read
  intro name member
  obtain ⟨edge, among, ends⟩ :=
    (NumberedGraph.builds_ofEdges edges).mem_names_iff.mp member
  have clean := clean_of_ofLines ofEdges edge among
  rcases ends with rfl | rfl
  · exact clean.1
  · exact clean.2

/-! ## The whole -/

/-- **A report is read part by part.**  Behind the end of a line it may be cut: it is read exactly
if both parts are, and then it refers to the classes of both and has the edges of both.  A fault
of the first part is its fault, and so is a fault of the second part if the first has none, as
many lines further down as the first part has.

In every graph that is read the nodes have distinct and clean names, and each is an end of an
edge; the edges lead between the nodes of their names. -/
theorem ofText_part_by_part :
    (∀ a b : List Char, Ended a →
      ((∃ whole, ofText (a ++ b) = .ok whole) ↔
        (∃ first, ofText a = .ok first) ∧ ∃ second, ofText b = .ok second) ∧
      (∀ first second, ofText a = .ok first → ofText b = .ok second →
        ∃ whole, ofText (a ++ b) = .ok whole ∧
          whole.referenced = first.referenced.union second.referenced ∧
          whole.edgeCount = first.edgeCount + second.edgeCount) ∧
      (∀ line fault, ofText a = .error ⟨line, fault⟩ → ofText (a ++ b) = .error ⟨line, fault⟩) ∧
      ∀ first line fault, ofText a = .ok first → ofText b = .error ⟨line, fault⟩ →
        ofText (a ++ b) = .error ⟨a.count '\n' + line, fault⟩) ∧
    ∀ text graph, ofText text = .ok graph →
      graph.numbered.names.Nodup ∧
      (∀ number, number < graph.numbered.nodeCount →
        NumberedGraph.Reached graph.numbered.edges number) ∧
      (∀ name ∈ graph.numbered.names, Clean name) ∧
      List.Forall₂ (NumberedGraph.Leads graph.numbered.names) graph.numbered.edges graph.edges ∧
      graph.numbered.nodeCount = graph.nodeCount := by
  constructor
  · intro a b ended
    have parts := ofText_append ended b
    refine ⟨?_, ?_, ?_, ?_⟩
    · cases first : ofText a with
      | error error => simp [parts, first]
      | ok graph => cases second : ofText b <;> simp [parts, first, second]
    · intro first second read readMore
      rw [read, readMore] at parts
      refine ⟨_, parts, ?_, ?_⟩
      · ext name
        rw [mem_referenced_append, NameSet.mem_union]
      · rw [edgeCount, List.length_append, edgeCount, edgeCount]
    · intro line fault failed
      rw [parts, failed]
    · intro first line fault read failed
      rw [parts, read, failed]
      rfl
  · intro text graph read
    have builds : graph.numbered.Builds graph.edges := NumberedGraph.builds_ofEdges graph.edges
    exact ⟨builds.numbered.nodup, builds.reached, clean_of_ofText read, builds.leads,
      nodeCount_numbered graph⟩

/-! ### A circle, and a fault in the fourth line -/

namespace Faulty

def circle : List Char := "a -> \"b (b.jar)\";\r\nb -> a\r\n".toList

def broken : List Char := "\n-> c\n".toList

theorem read_circle : ofText circle = .ok ⟨[⟨"a", "b"⟩, ⟨"b", "a"⟩]⟩ :=
  Outcome.toOption_eq_some.mp (by decide +kernel)

theorem read_broken : ofText broken = .error ⟨2, .badSource "-> c"⟩ := by
  decide +kernel

end Faulty

theorem ofText_part_by_part_of_faulty :
    ofText (Faulty.circle ++ Faulty.broken) = .error ⟨4, .badSource "-> c"⟩ ∧
      (ReferenceGraph.mk [⟨"a", "b"⟩, ⟨"b", "a"⟩]).numbered.names.Nodup ∧
      ∃ whole, ofText (Faulty.circle ++ Faulty.circle) = .ok whole ∧ whole.edgeCount = 4 := by
  obtain ⟨parts, nodes⟩ := ofText_part_by_part
  have ended : Ended Faulty.circle := .inr (by decide +kernel)
  obtain ⟨_, _, _, below⟩ := parts Faulty.circle Faulty.broken ended
  obtain ⟨_, together, _⟩ := parts Faulty.circle Faulty.circle ended
  obtain ⟨whole, read, _, edges⟩ := together _ _ Faulty.read_circle Faulty.read_circle
  exact ⟨below _ _ _ Faulty.read_circle Faulty.read_broken,
    (nodes _ _ Faulty.read_circle).1, whole, read, edges⟩

end ReferenceGraph

end DependencyAudit
