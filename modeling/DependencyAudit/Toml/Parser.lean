/-
# DependencyAudit.Toml.Parser -- texts in TOML

A text is a list of sections.  A section is headed by a table in single or double
brackets, save the first, and holds keys with their values, one to a line.
`sections?` reads them; `parse` then defines the tables they name, in order.

Brackets and braces nest below a limit; readers of nested values take the number of
levels that are left.
-/
import DependencyAudit.Toml.Number
import DependencyAudit.Toml.Value

namespace DependencyAudit.Toml

set_option autoImplicit false

/-! ## Values -/

/-- The items of an array, after its bracket.  Gaps may stand around items, and a
comma after the last one. -/
def arrayItems (item : Reader Value) : Nat → Reader (List Value)
  | 0, _ => none
  | budget + 1, cs =>
      match skipGap cs with
      | ']' :: after => some ([], after)
      | start => do
          let (first, rest) ← item start
          match skipGap rest with
          | ',' :: more =>
              let (others, after) ← arrayItems item budget more
              return (first :: others, after)
          | ']' :: after => return ([first], after)
          | _ => none

/-- A dotted key, an equals sign and a value. -/
def pair? (value : Reader Value) (cs : List Char) :
    Option ((List String × Value) × List Char) := do
  let (path, rest) ← path? cs
  let after ← mark? '=' rest
  let (read, rest) ← value (skipWhite after)
  return ((path, read), rest)

/-- The pairs between braces, after the opening one: on one line, and without a
comma after the last. -/
def inlinePairs (value : Reader Value) : Nat → Reader (List (List String × Value))
  | 0, _ => none
  | budget + 1, cs => do
      let (first, rest) ← pair? value cs
      match skipWhite rest with
      | ',' :: more =>
          let (others, after) ← inlinePairs value budget more
          return (first :: others, after)
      | '\x7d' :: after => return ([first], after)
      | _ => none

/-- A table between braces, after the opening one. -/
def inlineTable (value : Reader Value) (cs : List Char) : Option (Value × List Char) :=
  match skipWhite cs with
  | '\x7d' :: after => some (.table [], after)
  | _ => do
      let (pairs, after) ← inlinePairs value (cs.length + 1) cs
      let fields ← Fields.addAll pairs []
      return (.table (closeFields fields), after)

/-- A value that has no parts. -/
def simpleValue? (cs : List Char) : Option (Value × List Char) :=
  match cs with
  | 't' :: 'r' :: 'u' :: 'e' :: rest => some (.flag true, rest)
  | 'f' :: 'a' :: 'l' :: 's' :: 'e' :: rest => some (.flag false, rest)
  | c :: _ =>
      if isQuote c then (string? cs).map fun (text, rest) => (.text (String.ofList text), rest)
      else
        match instant? cs with
        | some instant => instant.map fun rest => (.instant, rest)
        | none => (number? cs).map fun rest => (.number, rest)
  | [] => none

/-- A value that nests less deep than the given number of levels. -/
def value? : Nat → Reader Value
  | 0, '[' :: _ => none
  | 0, '\x7b' :: _ => none
  | depth + 1, '[' :: rest =>
      (arrayItems (value? depth) (rest.length + 1) rest).map fun (items, after) =>
        (.array items, after)
  | depth + 1, '\x7b' :: rest => inlineTable (value? depth) rest
  | _, cs => simpleValue? cs

/-! ## Sections -/

/-- What heads a section. -/
inductive Header where
  | root
  | table (path : List String)
  | element (path : List String)
deriving Repr, DecidableEq

/-- A header with the pairs below it. -/
structure Section where
  header : Header
  pairs : List (List String × Value)

/-- What a line holds. -/
inductive Line where
  | blank
  | header (header : Header)
  | pair (path : List String) (value : Value)

/-- A line, with its end. -/
def line? (cs : List Char) : Option (Line × List Char) :=
  match skipWhite cs with
  | '[' :: '[' :: rest => do
      let (path, after) ← path? rest
      let after ← lineEnd? (← mark? ']' (← mark? ']' after))
      return (.header (.element path), after)
  | '[' :: rest => do
      let (path, after) ← path? rest
      let after ← lineEnd? (← mark? ']' after)
      return (.header (.table path), after)
  | start =>
      match lineEnd? start with
      | some after => some (.blank, after)
      | none => do
          let ((path, value), rest) ← pair? (value? (depthLimit - 1)) start
          let after ← lineEnd? rest
          return (.pair path value, after)

/-- All lines of a text. -/
def lines? : Nat → List Char → Option (List Line)
  | _, [] => some []
  | 0, _ => none
  | budget + 1, cs => do
      let (first, rest) ← line? cs
      return first :: (← lines? budget rest)

/-- The sections that lines make up, the first under the given header. -/
def sectionsOf (header : Header) (pairs : List (List String × Value)) : List Line → List Section
  | [] => [⟨header, pairs.reverse⟩]
  | .blank :: rest => sectionsOf header pairs rest
  | .pair path value :: rest => sectionsOf header ((path, value) :: pairs) rest
  | .header next :: rest => ⟨header, pairs.reverse⟩ :: sectionsOf next [] rest

/-- The sections of a text. -/
def sections? (cs : List Char) : Option (List Section) :=
  (lines? (cs.length + 1) cs).map (sectionsOf .root [])

/-! ## Texts -/

/-- Defines what a section holds. -/
def Section.define (part : Section) (fields : Fields) : Option Fields :=
  match part.header with
  | .root => fields.addAll part.pairs
  | .table path => fields.openTable path part.pairs
  | .element path => fields.openElement path part.pairs

/-- Defines what all sections hold, in order. -/
def defineAll : List Section → Fields → Option Fields
  | [], fields => some fields
  | part :: rest, fields => (part.define fields).bind (defineAll rest)

/-- The table that a text defines.  A byte order mark in front says nothing. -/
def parse (cs : List Char) : Option Value := do
  let text := match cs with
    | c :: rest => if c.toNat = 0xFEFF then rest else cs
    | [] => []
  let fields ← defineAll (← sections? text) []
  return .table (closeFields fields)

end DependencyAudit.Toml
