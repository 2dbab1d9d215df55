/-
# DependencyAudit.Yaml.FlowScalar -- plain and quoted scalars

A plain or quoted scalar may go over several lines.  A single line break
between two of its lines reads as a blank, further ones as themselves, and the
blanks around them do not count (`Gap.join`).

In single quotes a quote is written twice.  In double quotes a backslash starts
an escape, or takes away a line break.  A plain scalar ends before a comment, at
a colon that a blank follows, at the end of its indentation, and inside of flow
brackets at their punctuation.

Each scanner spends one unit of a budget for each character or break; the
length of the text covers it.
-/
import DependencyAudit.Yaml.Cursor

namespace DependencyAudit.Yaml

set_option autoImplicit false

/-! ## Gaps -/

/-- What stands between two stretches of a scalar: blanks, or a first break and
the breaks after it. -/
structure Gap where
  blanks : List Char
  first : List Char
  others : List Char
  /-- Whether there was a break. -/
  broken : Bool
deriving Repr, DecidableEq

namespace Gap

def none : Gap := ⟨[], [], [], false⟩

/-- After a line break that an escape took away. -/
def escapedBreak : Gap := ⟨[], [], [], true⟩

/-- What a gap reads as. -/
def join (gap : Gap) : List Char :=
  if !gap.broken then gap.blanks
  else if gap.first = ['\n'] then if gap.others.isEmpty then [' '] else gap.others
  else gap.first ++ gap.others

def addBlank (gap : Gap) (c : Char) : Gap :=
  if gap.broken then gap else { gap with blanks := gap.blanks ++ [c] }

def addBreak (gap : Gap) (read : List Char) : Gap :=
  if gap.broken then { gap with others := gap.others ++ read }
  else ⟨[], read, [], true⟩

/-- Reads blanks and breaks.  `tabFloor` is the column that a tab on a new line
must reach, if there is such a rule. -/
def read (tabFloor : Nat) : Nat → Gap → Cursor → Option (Gap × Cursor)
  | 0, _, _ => Option.none
  | budget + 1, gap, cursor =>
      match cursor.at? 0 with
      | some c =>
          if isSpaceOrTab c then
            if gap.broken ∧ cursor.column < tabFloor ∧ c = '\t' then Option.none
            else read tabFloor budget (gap.addBlank c) cursor.step
          else if isBreak c then
            let (text, after) := cursor.stepBreak
            read tabFloor budget (gap.addBreak text) after
          else some (gap, cursor)
      | Option.none => some (gap, cursor)

end Gap

/-! ## Quoted scalars -/

def hexValue? (c : Char) : Option Nat :=
  if c.isDigit then some (c.toNat - '0'.toNat)
  else if 'a' ≤ c ∧ c ≤ 'f' then some (c.toNat - 'a'.toNat + 10)
  else if 'A' ≤ c ∧ c ≤ 'F' then some (c.toNat - 'A'.toNat + 10)
  else none

/-- The number that a list of hexadecimal digits writes. -/
def hexNumber? (cs : List Char) : Option Nat :=
  cs.foldlM (fun value c => (hexValue? c).map fun digit => value * 16 + digit) 0

/-- The character of a code point, unless it is a surrogate or too large. -/
def codePoint? (n : Nat) : Option Char :=
  if n.isValidChar then some (Char.ofNat n) else none

/-- The character of a one-letter escape. -/
def escape? (c : Char) : Option Char :=
  match c with
  | '0' => some (Char.ofNat 0)
  | 'a' => some (Char.ofNat 7)
  | 'b' => some (Char.ofNat 8)
  | 't' | '\t' => some '\t'
  | 'n' => some '\n'
  | 'v' => some (Char.ofNat 11)
  | 'f' => some (Char.ofNat 12)
  | 'r' => some '\r'
  | 'e' => some (Char.ofNat 27)
  | ' ' => some ' '
  | '"' => some '"'
  | '/' => some '/'
  | '\\' => some '\\'
  | 'N' => some (Char.ofNat 0x85)
  | '_' => some (Char.ofNat 0xA0)
  | 'L' => some (Char.ofNat 0x2028)
  | 'P' => some (Char.ofNat 0x2029)
  | _ => none

/-- The number of digits that the letter of a numeric escape takes. -/
def escapeWidth? (c : Char) : Option Nat :=
  if c = 'x' then some 2 else if c = 'u' then some 4 else if c = 'U' then some 8 else none

/-- Reads an escape after its backslash. -/
def readEscape (cursor : Cursor) : Option (Char × Cursor) := do
  let letter ← cursor.at? 0
  match escapeWidth? letter with
  | some width =>
      let digits := (cursor.rest.drop 1).take width
      if digits.length = width then
        let c ← codePoint? (← hexNumber? digits)
        return (c, cursor.steps (width + 1))
      else none
  | none => return (← escape? letter, cursor.step)

/-- Reads a quoted scalar after its opening quote, given what was read of it. -/
def readQuoted (double : Bool) : Nat → List Char → Cursor → Option (List Char × Cursor)
  | 0, _, _ => none
  | budget + 1, text, cursor => do
      let c ← cursor.at? 0
      if cursor.isAnyMarker then none
      else if !double && c = '\x27' then
        if cursor.has '\x27' 1 then readQuoted double budget (text ++ ['\x27']) (cursor.steps 2)
        else return (text, cursor.step)
      else if double && c = '"' then return (text, cursor.step)
      else if double && c = '\\' then
        if (cursor.step).next isBreak then
          let (gap, after) ← Gap.read 0 budget .escapedBreak (cursor.step.stepBreak).2
          readQuoted double budget (text ++ gap.join) after
        else
          let (escaped, after) ← readEscape cursor.step
          readQuoted double budget (text ++ [escaped]) after
      else if isSpaceOrTab c || isBreak c then
        let (gap, after) ← Gap.read 0 (budget + 1) .none cursor
        readQuoted double budget (text ++ gap.join) after
      else readQuoted double budget (text ++ [c]) cursor.step

/-! ## Plain scalars -/

/-- Punctuation of flow brackets. -/
def isFlowMark (c : Char) : Bool :=
  c = ',' || c = '[' || c = ']' || c = '{' || c = '}'

/-- Whether a plain scalar ends before this character. -/
def endsPlain (inFlow : Bool) (cursor : Cursor) : Bool :=
  (cursor.has ':' 0 && cursor.isGap 1) || (inFlow && cursor.next isFlowMark)

/-- Inside of flow brackets a colon must not touch their punctuation. -/
def isStrayColon (inFlow : Bool) (cursor : Cursor) : Bool :=
  inFlow && cursor.has ':' 0 && (cursor.at? 1).any fun c => isFlowMark c || c = '?'

/-- A plain scalar: its text, the place after it, and whether that is on a line
of its own. -/
structure Plain where
  text : List Char
  cursor : Cursor
  broken : Bool
deriving Repr, DecidableEq

/-- Reads a plain scalar whose further lines start at column `floor` at least,
given what was read of it and the gap after that. -/
def readPlain (inFlow : Bool) (floor : Nat) : Nat → List Char → Gap → Cursor → Option Plain
  | 0, _, _, _ => none
  | budget + 1, text, gap, cursor =>
      let done : Plain := ⟨text, cursor, gap.broken⟩
      if cursor.isEnd then some done
      else if cursor.next fun c => isSpaceOrTab c || isBreak c then do
        let (wider, after) ← Gap.read floor (budget + 1) gap cursor
        if !inFlow && after.column < floor then return ⟨text, after, wider.broken⟩
        else readPlain inFlow floor budget text wider after
      else if gap ≠ .none ∧ (cursor.isAnyMarker || cursor.has '#' 0) then some done
      else if isStrayColon inFlow cursor then none
      else if endsPlain inFlow cursor then some done
      else match cursor.at? 0 with
        | some c => readPlain inFlow floor budget (text ++ gap.join ++ [c]) .none cursor.step
        | none => some done

end DependencyAudit.Yaml
