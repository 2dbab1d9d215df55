/-
# DependencyAudit.ReferenceGraph -- graphs of references between classes

A tool that analyses classes can leave its findings as a graph in the dot
format, an edge to a line:

    digraph "main" {
        "com.example.Service" -> "com.google.common.base.Strings (guava.jar)";
    }

`ofText` reads such a text line by line (`ofLines_append`).  A name may be
quoted and may carry an annotation in parentheses after a blank; an edge may
carry an attribute list in brackets.  Blank lines, comments, the header, the
closing brace and settings (`key=value`) say nothing.  Any other line is a
fault, and the first one is reported.
-/
import DependencyAudit.NameSet
import DependencyAudit.Text.Alphanumeric
import DependencyAudit.Text.Line

namespace DependencyAudit

open Text

set_option autoImplicit false

/-- A reference of one class to another. -/
structure Reference where
  source : String
  target : String
deriving Repr, DecidableEq

/-- The references of a report, in order, repetitions included. -/
structure ReferenceGraph where
  edges : List Reference
deriving Repr, DecidableEq

/-- What is wrong with a line. -/
inductive GraphFault where
  | unopenedHeader
  | badSource (line : String)
  | badTarget (line : String)
  | noEdge (line : String)
deriving Repr, DecidableEq

namespace GraphFault

def message : GraphFault → String
  | .unopenedHeader => "graph header must end with '\x7b'"
  | .badSource line => "invalid edge source in '" ++ line ++ "'"
  | .badTarget line => "invalid edge target in '" ++ line ++ "'"
  | .noEdge line => "expected an edge, found '" ++ line ++ "'"

end GraphFault

/-- The first faulty line of a report, counted from 1. -/
structure GraphError where
  line : Nat
  fault : GraphFault
deriving Repr, DecidableEq

namespace ReferenceGraph

/-! ## Names -/

/-- Without annotations: a blank, an opening parenthesis, and all up to the next
closing one.  The flag says that the text starts inside an annotation. -/
def withoutAnnotations : Bool → List Char → List Char
  | _, [] => []
  | true, c :: rest => withoutAnnotations (c ≠ ')') rest
  | false, c :: rest =>
      if c = ' ' ∧ rest.head? = some '(' ∧ ')' ∈ rest then withoutAnnotations true rest
      else c :: withoutAnnotations false rest

/-- Without annotations and quotes. -/
def cleanChars (cs : List Char) : List Char :=
  (withoutAnnotations false cs).filter (· ≠ '"')

/-- A name without annotations and quotes. -/
def cleanName (name : String) : String :=
  String.ofList (cleanChars name.toList)

/-- Without an attribute list at the end. -/
def withoutAttributes (cs : List Char) : List Char :=
  match cutAt? '[' cs with
  | some (name, _) => if cs.getLast? = some ']' then trimBlank name else cs
  | none => cs

/-- The class on one side of an edge. -/
def nodeName? (side : List Char) : Option String :=
  let raw := trimBlank (dropBack (· = ';') (trimBlank side))
  let name := trimBlank (cleanChars (withoutAttributes raw))
  if name.isEmpty || name.any isBlank then none else some (String.ofList name)

/-! ## Lines -/

/-- The parts before and after the first arrow. -/
def cutArrow? : List Char → Option (List Char × List Char)
  | [] => none
  | c :: rest =>
      match after? ['-', '>'] (c :: rest) with
      | some target => some ([], target)
      | none => (cutArrow? rest).map fun (source, target) => (c :: source, target)

/-- Whether a line sets a graph attribute. -/
def isSetting (line : List Char) : Bool :=
  match cutAt? '=' (dropBack (· = ';') line) with
  | some (key, _) =>
      let key := trimBlank key
      !key.isEmpty && key.all fun c => isAlphanumeric c || c = '_'
  | none => false

/-- The edges of a line without outer blanks: one or none. -/
def ofTrimmedLine (line : List Char) : Except GraphFault (List Reference) :=
  if line.isEmpty || (after? ['/', '/'] line).isSome || line = ['}'] then .ok []
  else if (after? "digraph".toList line).isSome then
    if line.getLast? = some '{' then .ok [] else .error .unopenedHeader
  else match cutArrow? line with
    | some (source, target) =>
        match nodeName? source, nodeName? target with
        | none, _ => .error (.badSource (String.ofList line))
        | some _, none => .error (.badTarget (String.ofList line))
        | some source, some target => .ok [⟨source, target⟩]
    | none => if isSetting line then .ok [] else .error (.noEdge (String.ofList line))

/-- The edges of a line. -/
def ofLine (line : List Char) : Except GraphFault (List Reference) :=
  ofTrimmedLine (trimBlank line)

/-- The edges of lines, the first of which has the given number. -/
def ofLines : Nat → List (List Char) → Except GraphError (List Reference)
  | _, [] => .ok []
  | number, line :: rest =>
      match ofLine line with
      | .error fault => .error ⟨number, fault⟩
      | .ok edges =>
          match ofLines (number + 1) rest with
          | .error error => .error error
          | .ok more => .ok (edges ++ more)

/-- The graph of a report. -/
def ofText (text : List Char) : Except GraphError ReferenceGraph :=
  (ofLines 1 (lines text)).map ReferenceGraph.mk

/-! ## Views -/

/-- The classes that something refers to. -/
def referenced (graph : ReferenceGraph) : NameSet :=
  .ofList (graph.edges.map Reference.target)

/-- The classes on either side of an edge. -/
def nodes (graph : ReferenceGraph) : NameSet :=
  .ofList (graph.edges.flatMap fun edge => [edge.source, edge.target])

def edgeCount (graph : ReferenceGraph) : Nat :=
  graph.edges.length

def nodeCount (graph : ReferenceGraph) : Nat :=
  graph.nodes.size

/-! ## Facts -/

theorem ofLines_append (number : Nat) (before after : List (List Char)) :
    ofLines number (before ++ after) =
      match ofLines number before with
      | .error error => .error error
      | .ok edges =>
          match ofLines (number + before.length) after with
          | .error error => .error error
          | .ok more => .ok (edges ++ more) := by
  induction before generalizing number with
  | nil =>
      simp only [List.nil_append, ofLines, List.length_nil, Nat.add_zero]
      cases ofLines number after <;> rfl
  | cons line rest step =>
      simp only [List.cons_append, ofLines, List.length_cons]
      cases ofLine line with
      | error fault => rfl
      | ok edges =>
          simp only [step (number + 1), Nat.add_right_comm number 1 rest.length, ← Nat.add_assoc]
          cases ofLines (number + 1) rest with
          | error error => rfl
          | ok more =>
              simp only
              cases ofLines (number + rest.length + 1) after <;> simp

theorem mem_referenced_append {name : String} (before after : List Reference) :
    name ∈ (ReferenceGraph.mk (before ++ after)).referenced ↔
      name ∈ (ReferenceGraph.mk before).referenced ∨
        name ∈ (ReferenceGraph.mk after).referenced := by
  simp [referenced]

end ReferenceGraph

end DependencyAudit
