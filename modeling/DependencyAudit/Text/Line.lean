/-
# DependencyAudit.Text.Line -- the lines of a text

A line ends in a line feed, which may follow a carriage return; the last line may go
without.  An empty ending is no line.  So a text that ends in a line feed contributes
exactly its own lines (`lines_append_of_ended`), as many as it has line feeds
(`length_lines_of_ended`).
-/
import DependencyAudit.Text.Blank
import DependencyAudit.Text.Split

namespace DependencyAudit.Text

set_option autoImplicit false

/-- Without one carriage return at the end. -/
def withoutReturn (line : List Char) : List Char :=
  (before? ['\r'] line).getD line

/-- The lines of the parts between line feeds: the last part is none if empty. -/
def linesOfParts : List (List Char) → List (List Char)
  | [] => []
  | [last] => if last.isEmpty then [] else [last]
  | line :: more => withoutReturn line :: linesOfParts more

/-- The lines of a text, without their ends. -/
def lines (cs : List Char) : List (List Char) :=
  linesOfParts (splitOn '\n' cs)

/-! ## Facts -/

theorem lines_of_notMem {cs : List Char} (unfed : '\n' ∉ cs) (filled : cs ≠ []) :
    lines cs = [cs] := by
  simp [lines, splitOn_of_notMem unfed, linesOfParts, filled]

theorem linesOfParts_append {before after : List (List Char)} (more : after ≠ []) :
    linesOfParts (before ++ after) = before.map withoutReturn ++ linesOfParts after := by
  induction before with
  | nil => rfl
  | cons line rest step =>
      cases rest with
      | nil =>
          cases after with
          | nil => exact absurd rfl more
          | cons next tail => rfl
      | cons next tail => simpa [linesOfParts] using step

/-- A text that ends in a line feed keeps its lines, whatever follows. -/
theorem lines_append (cs ds : List Char) :
    lines (cs ++ '\n' :: ds) = lines (cs ++ ['\n']) ++ lines ds := by
  have feedOnly : splitOn '\n' [] = [[]] := rfl
  rw [lines, lines, lines, splitOn_append, splitOn_append, feedOnly,
    linesOfParts_append (splitOn_ne_nil '\n' ds), linesOfParts_append (by simp)]
  simp [linesOfParts]

/-- A text is empty, or its last line has its end. -/
def Ended (cs : List Char) : Prop :=
  cs = [] ∨ cs.getLast? = some '\n'

theorem lines_append_of_ended {cs : List Char} (ended : Ended cs) (ds : List Char) :
    lines (cs ++ ds) = lines cs ++ lines ds := by
  rcases ended with rfl | last
  · rfl
  · obtain ⟨front, rfl⟩ := List.getLast?_eq_some_iff.mp last
    rw [List.append_assoc, List.singleton_append, lines_append]

theorem length_lines_of_ended {cs : List Char} (ended : Ended cs) :
    (lines cs).length = cs.count '\n' := by
  rcases ended with rfl | last
  · rfl
  · obtain ⟨front, rfl⟩ := List.getLast?_eq_some_iff.mp last
    have feedOnly : splitOn '\n' [] = [[]] := rfl
    rw [lines, splitOn_append, feedOnly, linesOfParts_append (by simp), List.length_append,
      List.length_map, length_splitOn, List.count_append]
    simp [linesOfParts]

end DependencyAudit.Text
