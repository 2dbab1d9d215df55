/-
# DependencyAudit.Yaml.BlockScalar -- literal and folded scalars

A block scalar is the lines below its indicator that are indented deeply enough.
Literal lines keep their breaks; folded lines are joined by blanks unless one of
them starts with a blank.  The header may fix the indentation, and it says what
becomes of the breaks at the end: one is kept, none (`-`), or all (`+`).
-/
import DependencyAudit.Yaml.Cursor

namespace DependencyAudit.Yaml.BlockScalar

set_option autoImplicit false

/-- What becomes of the breaks at the end. -/
inductive Chomping where
  | strip
  | clip
  | keep
deriving Repr, DecidableEq

/-- What the header says. -/
structure Header where
  chomping : Chomping
  /-- The indentation, counted from that of the block around; 0 if not given. -/
  increment : Nat
deriving Repr, DecidableEq

def chomping? (c : Char) : Option Chomping :=
  if c = '+' then some .keep else if c = '-' then some .strip else none

/-- Reads an indentation digit, which must not be 0. -/
def readIncrement (cursor : Cursor) : Option (Nat × Cursor) :=
  match cursor.at? 0 with
  | some c =>
      if c.isDigit then
        if c = '0' then none else some (c.toNat - '0'.toNat, cursor.step)
      else some (0, cursor)
  | none => some (0, cursor)

/-- Reads a chomping indicator. -/
def readChomping (cursor : Cursor) : Chomping × Cursor :=
  match (cursor.at? 0).bind chomping? with
  | some chomping => (chomping, cursor.step)
  | none => (.clip, cursor)

/-- Whether a chomping indicator is next. -/
def startsWithChomping (cursor : Cursor) : Bool :=
  ((cursor.at? 0).bind chomping?).isSome

/-- Reads the header after its indicator, in either order of its parts. -/
def readHeader (cursor : Cursor) : Option (Header × Cursor) := do
  if startsWithChomping cursor then
    let (chomping, cursor) := readChomping cursor
    let (increment, cursor) ← readIncrement cursor
    return (⟨chomping, increment⟩, cursor)
  else
    let (increment, cursor) ← readIncrement cursor
    if increment = 0 then return (⟨.clip, 0⟩, cursor)
    else
      let (chomping, cursor) := readChomping cursor
      return (⟨chomping, increment⟩, cursor)

/-- Passes over blanks and a comment to the end of the line, and over it. -/
def endHeader (cursor : Cursor) : Option Cursor :=
  let cursor := cursor.dropWhile isSpaceOrTab
  let cursor := if cursor.has '#' 0 then cursor.toLineEnd else cursor
  if cursor.isEnd then some cursor
  else if cursor.next isBreak then some (cursor.stepBreak).2
  else none

/-- Reads empty lines down to the next line of the scalar.  `indent` is 0 as long
as it is not known; `widest` is the widest of the empty lines. -/
def readBreaks (indent : Nat) : Nat → Nat → List Char → Cursor → Option (List Char × Nat × Cursor)
  | 0, _, _, _ => none
  | budget + 1, widest, breaks, cursor =>
      let room := fun (column : Nat) => indent = 0 || column < indent
      let blanks := (cursor.rest.takeWhile (· = ' ')).length
      let passed := if indent = 0 then blanks else min blanks (indent - cursor.column)
      let cursor := cursor.steps passed
      let widest := max widest cursor.column
      if room cursor.column && cursor.has '\t' 0 then none
      else if cursor.next isBreak then
        let (text, after) := cursor.stepBreak
        readBreaks indent budget widest (breaks ++ text) after
      else some (breaks, widest, cursor)

/-- The lines read so far. -/
structure Body where
  text : List Char
  /-- The break after the last line. -/
  first : List Char
  /-- The breaks of the empty lines after that. -/
  others : List Char
  /-- Whether the last line started with a blank. -/
  blankStart : Bool
deriving Repr, DecidableEq

/-- What the breaks after a line read as, if a further line follows. -/
def Body.join (body : Body) (folded blankNext : Bool) : List Char :=
  if folded && body.first = ['\n'] && !body.blankStart && !blankNext then
    if body.others.isEmpty then [' '] else body.others
  else body.first ++ body.others

/-- Reads the lines of a scalar of a known indentation. -/
def readLines (folded : Bool) (indent : Nat) : Nat → Body → Cursor → Option (Body × Cursor)
  | 0, _, _ => none
  | budget + 1, body, cursor =>
      if cursor.column ≠ indent ∨ cursor.isEnd then some (body, cursor)
      else do
        let blankStart := cursor.next isSpaceOrTab
        let (line, after) := cursor.takeWhile fun c => !isBreak c
        let (first, after) := after.stepBreak
        let (others, _, after) ← readBreaks indent (budget + 1) 0 [] after
        readLines folded indent budget
          ⟨body.text ++ body.join folded blankStart ++ line, first, others, blankStart⟩ after

/-- The text of the scalar. -/
def Body.chomp (body : Body) : Chomping → List Char
  | .strip => body.text
  | .clip => body.text ++ body.first
  | .keep => body.text ++ body.first ++ body.others

/-- Reads a block scalar after its indicator.  `parent` is one more than the
indentation of the block around. -/
def read (folded : Bool) (parent : Nat) (cursor : Cursor) : Option (List Char × Cursor) := do
  let budget := cursor.rest.length + 2
  let (header, cursor) ← readHeader cursor
  let cursor ← endHeader cursor
  let given := if header.increment = 0 then 0 else parent - 1 + header.increment
  let (others, widest, cursor) ← readBreaks given budget 0 [] cursor
  let indent := if given = 0 then max widest (max parent 1) else given
  let (body, cursor) ← readLines folded indent budget ⟨[], [], others, false⟩ cursor
  return (body.chomp header.chomping, cursor)

end DependencyAudit.Yaml.BlockScalar
