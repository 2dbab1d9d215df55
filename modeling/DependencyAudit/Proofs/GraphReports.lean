/-
# DependencyAudit.Proofs.GraphReports -- graph reports read back

A report as tools write it has an edge to a line, between a header and a closing brace, with
remarks anywhere, and its lines end in one way or the other (`GraphReport`).  No line holds the
end of another (`unfed_line`), so the text is cut into the lines that it was put together from,
and is read as their edges (`ofText_report`).
-/
import Mathlib.Data.Finset.Card
import DependencyAudit.Proofs.GraphLines

namespace DependencyAudit

open Text

set_option autoImplicit false

/-! ## Reports -/

/-- How a line ends. -/
inductive LineEnd where
  | feed
  | returnFeed

/-- A report: a header, edges and a closing brace, with remarks anywhere. -/
structure GraphReport where
  before : List (RemarkLine × LineEnd)
  header : HeaderLine × LineEnd
  body : List ((EdgeLine ⊕ RemarkLine) × LineEnd)
  indent : Padding
  trail : Padding
  closingEnd : LineEnd
  after : List (RemarkLine × LineEnd)
  /-- Whether the last line goes without its end. -/
  unended : Bool

namespace LineEnd

def text : LineEnd → List Char
  | .feed => ['\n']
  | .returnFeed => ['\r', '\n']

end LineEnd

namespace GraphReport

/-- The lines of a report, in order. -/
def lines (report : GraphReport) : List (ReportLine × LineEnd) :=
  report.before.map (fun (line, ending) => (.remark line, ending)) ++
    (.header report.header.1, report.header.2) ::
    report.body.map (fun (line, ending) => (line.elim .edge .remark, ending)) ++
    (.closing report.indent report.trail, report.closingEnd) ::
    report.after.map fun (line, ending) => (.remark line, ending)

/-- The text of some lines. -/
def textOf (unended : Bool) : List (ReportLine × LineEnd) → List Char
  | [] => []
  | [(line, ending)] => line.text ++ if unended then [] else ending.text
  | (line, ending) :: rest => line.text ++ ending.text ++ textOf unended rest

def text (report : GraphReport) : List Char :=
  textOf report.unended report.lines

/-- The edges of a report, in order. -/
def edges (report : GraphReport) : List Reference :=
  report.body.filterMap fun (line, _) => line.elim (fun edge => some edge.reference) fun _ => none

end GraphReport

theorem NameSet.size_ofList (names : List String) : (ofList names).size = names.toFinset.card := by
  have same : (ofList names).toList.toFinset = names.toFinset := by
    ext name
    rw [List.mem_toFinset, List.mem_toFinset, NameSet.mem_toList, NameSet.mem_ofList]
  have distinct : (ofList names).toList.Nodup := by
    refine (ofList names).ascending.imp fun below => ?_
    rintro rfl
    exact String.lt_irrefl _ below
  rw [← same, List.toFinset_card_of_nodup distinct, NameSet.size]

namespace ReferenceGraph

/-! ## Ends of lines -/

theorem unfed_of_unspaced (name : NodeName) : '\n' ∉ name.text.toList := fun member =>
  absurd (name.unspaced '\n' member) (by decide)

/-- No line holds the end of another. -/
theorem unfed_line (line : ReportLine) : '\n' ∉ line.text := by
  cases line with
  | header line => simp [ReportLine.text, line.indent.unfed, line.unfed, line.trail.unfed]
  | closing indent trail => simp [ReportLine.text, indent.unfed, trail.unfed]
  | remark line =>
      cases line with
      | blank padding => exact padding.unfed
      | comment indent text unfed => simp [ReportLine.text, indent.unfed, unfed]
      | setting line =>
          have key : '\n' ∉ line.key := fun member =>
            absurd (not_blank_of_key line '\n' member) (by decide)
          simp [ReportLine.text, line.indent.unfed, key, line.beforeSign.unfed, line.unfed]
  | edge line =>
      have aside : '\n' ∉ line.aside.elim [] Aside.written := by
        cases line.aside with
        | none => simp
        | some aside => simp [Aside.written, aside.unfed]
      have attributes : '\n' ∉ line.attributes.elim [] AttributeList.written := by
        cases line.attributes with
        | none => simp
        | some attributes =>
            simp [AttributeList.written, attributes.gap.unfed, attributes.unfed]
      simp [ReportLine.text, EdgeLine.text, EdgeLine.sourceText, EdgeLine.targetSide,
        EdgeLine.targetText, line.indent.unfed, line.beforeArrow.unfed, line.afterArrow.unfed,
        line.beforeMark.unfed, line.trail.unfed, unfed_of_unspaced, aside, attributes]

/-- A carriage return at the end of a line does not matter. -/
theorem ofLine_concat_return (cs : List Char) : ofLine (cs ++ ['\r']) = ofLine cs := by
  have same : trimBlank (cs ++ ['\r']) = trimBlank cs :=
    trimBy_of_append_all (List.all_eq_true.mp (by decide)) cs
  rw [ofLine, same, ofLine]

theorem ofLine_withoutReturn (cs : List Char) : ofLine (withoutReturn cs) = ofLine cs := by
  rw [withoutReturn]
  cases found : before? ['\r'] cs with
  | none => rfl
  | some kept =>
      obtain ⟨reversed, after, rfl⟩ := Option.map_eq_some_iff.mp found
      have shape := congrArg List.reverse (eq_append_of_after? after)
      rw [List.reverse_reverse] at shape
      rw [shape, Option.getD_some]
      simpa using (ofLine_concat_return reversed.reverse).symm

/-- A line with its end is a line of the text, and reads as it would without the end. -/
theorem exists_lines_end (line : ReportLine) (ending : LineEnd) (rest : List Char) :
    ∃ own, lines (line.text ++ ending.text ++ rest) = own :: lines rest ∧
      ofLine own = ofLine line.text := by
  have fed : ∀ cs : List Char, '\n' ∉ cs →
      lines (cs ++ '\n' :: rest) = withoutReturn cs :: lines rest := by
    intro cs unfed
    have feedOnly : splitOn '\n' [] = [[]] := rfl
    rw [lines_append, lines, splitOn_append, splitOn_of_notMem unfed, feedOnly]
    rfl
  cases ending with
  | feed =>
      refine ⟨_, ?_, ofLine_withoutReturn line.text⟩
      rw [← fed _ (unfed_line line)]
      simp [LineEnd.text]
  | returnFeed =>
      have unfed : '\n' ∉ line.text ++ ['\r'] := by simp [unfed_line line]
      refine ⟨_, ?_, (ofLine_withoutReturn _).trans (ofLine_concat_return line.text)⟩
      rw [← fed _ unfed]
      simp [LineEnd.text]

/-! ## The whole -/

theorem ofLines_cons {number : Nat} {line : List Char} {rest : List (List Char)}
    {edges more : List Reference} (first : ofLine line = .ok edges)
    (others : ofLines (number + 1) rest = .ok more) :
    ofLines number (line :: rest) = .ok (edges ++ more) := by
  rw [ofLines, first]
  simp only [others]

/-- A text of lines is read as the edges they are written for. -/
theorem ofLines_textOf (unended : Bool) :
    ∀ (report : List (ReportLine × LineEnd)) (number : Nat),
      ofLines number (lines (GraphReport.textOf unended report)) =
        .ok (report.flatMap fun (line, _) => line.edges)
  | [], _ => rfl
  | [(line, ending)], number => by
      rw [GraphReport.textOf, List.flatMap_cons, List.flatMap_nil]
      cases unended with
      | true =>
          rw [if_pos rfl, List.append_nil]
          by_cases filled : line.text = []
          · -- Nothing at the end of a text is no line, and was written for no edge.
            have nothing := ofLine_line line
            rw [filled] at nothing ⊢
            exact congrArg (fun edges => Except.ok (edges ++ [])) (Except.ok.inj nothing)
          · rw [lines_of_notMem (unfed_line line) filled]
            exact ofLines_cons (ofLine_line line) rfl
      | false =>
          obtain ⟨own, split, read⟩ := exists_lines_end line ending []
          rw [List.append_nil] at split
          rw [if_neg (by decide), split]
          exact ofLines_cons (read.trans (ofLine_line line)) rfl
  | (line, ending) :: next :: rest, number => by
      obtain ⟨own, split, read⟩ := exists_lines_end line ending
        (GraphReport.textOf unended (next :: rest))
      rw [GraphReport.textOf, split, List.flatMap_cons]
      · exact ofLines_cons (read.trans (ofLine_line line))
          (ofLines_textOf unended (next :: rest) (number + 1))
      · simp

theorem flatMap_edges_lines (report : GraphReport) :
    report.lines.flatMap (fun (line, _) => line.edges) = report.edges := by
  have remarks : ∀ lines : List (RemarkLine × LineEnd),
      (lines.map fun (line, ending) => (ReportLine.remark line, ending)).flatMap
        (fun (line, _) => line.edges) = [] := by
    intro lines
    simp [List.flatMap_map, ReportLine.edges]
  have body : (report.body.map fun (line, ending) =>
      (Sum.elim ReportLine.edge ReportLine.remark line, ending)).flatMap
        (fun (line, _) => line.edges) = report.edges := by
    rw [GraphReport.edges]
    induction report.body with
    | nil => rfl
    | cons entry rest same =>
        obtain ⟨line, ending⟩ := entry
        rw [List.map_cons, List.flatMap_cons, same]
        cases line <;> rfl
  rw [GraphReport.lines, List.flatMap_append, List.flatMap_append, List.flatMap_cons,
    List.flatMap_cons, remarks, remarks, body]
  simp [ReportLine.edges]

/-- **A report reads back as its edges**, whatever stands around them: its referenced classes are
the targets, edges count as often as they occur, and names once. -/
theorem ofText_report (report : GraphReport) :
    ∃ graph, ofText report.text = .ok graph ∧ graph.edges = report.edges ∧
      (∀ name, name ∈ graph.referenced ↔ ∃ edge ∈ report.edges, edge.target = name) ∧
      graph.edgeCount = report.edges.length ∧
      graph.nodeCount =
        (report.edges.flatMap fun edge => [edge.source, edge.target]).toFinset.card := by
  refine ⟨⟨report.edges⟩, ?_, rfl, fun name => ?_, rfl, NameSet.size_ofList _⟩
  · rw [ofText, GraphReport.text, ofLines_textOf, flatMap_edges_lines]
    rfl
  · rw [referenced, NameSet.mem_ofList, List.mem_map]

end ReferenceGraph

end DependencyAudit
