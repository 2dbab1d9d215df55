/-
# DependencyAudit.Yaml.Printer -- writing lists of texts as YAML

A text is written plain where that reads back as the same text, so never if it is
ambiguous (`style_ambiguous`), else in single quotes, else in double quotes with
escapes.  A text with a line feed in it becomes a literal block if it can.

`Traits` gathers what decides between these styles; `item` writes a text as an item
of a list, `listing` a key with its list.
-/
import DependencyAudit.Json.Printer
import DependencyAudit.Yaml.Cursor
import DependencyAudit.Yaml.PlainText

namespace DependencyAudit.Yaml.Printer

set_option autoImplicit false

/-! ## Characters -/

/-- Characters that need no escape. -/
def isPrintable (c : Char) : Bool :=
  let n := c.toNat
  n = 0x0A || (0x20 ≤ n && n ≤ 0x7E) || (0xA0 ≤ n && n ≤ 0xFFFD && n ≠ 0xFEFF) || 0x10000 ≤ n

/-- Whether a blank, a break, a NUL or the end follows. -/
def isGap : Option Char → Bool
  | none => true
  | some c => isSpaceOrTab c || isBreak c || c.toNat = 0

/-- Characters that cannot begin a plain scalar. -/
def isIndicator (c : Char) : Bool :=
  "#,[]\x7b\x7d&*!|>\x27\"%@\x60".toList.contains c

/-- Characters that cannot begin a plain scalar before a gap. -/
def isGapIndicator (c : Char) : Bool :=
  c = '?' || c = ':' || c = '-'

/-! ## Styles -/

/-- Whether two neighbours with given properties occur. -/
def hasNeighbours (first second : Char → Bool) : List Char → Bool
  | a :: b :: rest => (first a && second b) || hasNeighbours first second (b :: rest)
  | _ => false

def isSpace (c : Char) : Bool :=
  c = ' '

/-- A document marker in front. -/
def startsMarker : List Char → Bool
  | '-' :: '-' :: '-' :: _ => true
  | '.' :: '.' :: '.' :: _ => true
  | _ => false

/-- Whether indicators at the front forbid a plain scalar. -/
def startsIndicator : List Char → Bool
  | [] => false
  | c :: rest => isIndicator c || (isGapIndicator c && isGap rest.head?)

/-- Whether a colon before a gap, or a number sign after one, forbids a plain
scalar. -/
def hasInnerIndicator (cs : List Char) : Bool :=
  hasNeighbours (· = ':') (fun c => isGap (some c)) cs || cs.getLast? = some ':' ||
    hasNeighbours (fun c => isGap (some c)) (· = '#') cs

/-- What decides between the styles. -/
structure Traits where
  hasSpecial : Bool
  hasBreak : Bool
  /-- A space or a break at either end. -/
  hasOuterGap : Bool
  endsInSpace : Bool
  hasBreakSpace : Bool
  hasSpaceBreak : Bool
  hasIndicator : Bool
deriving Repr, DecidableEq

def traits (cs : List Char) : Traits where
  hasSpecial := cs.any fun c => !isPrintable c
  hasBreak := cs.any isBreak
  hasOuterGap := (cs.head?.toList ++ cs.getLast?.toList).any fun c => isSpace c || isBreak c
  endsInSpace := cs.getLast?.any isSpace
  hasBreakSpace := hasNeighbours isBreak isSpace cs
  hasSpaceBreak := hasNeighbours isSpace isBreak cs
  hasIndicator := startsMarker cs || startsIndicator cs || hasInnerIndicator cs

/-- How a scalar is written. -/
inductive Style where
  | plain
  | single
  | double
  | literal
deriving Repr, DecidableEq

/-- Single quotes where they can be used. -/
def quotedStyle (traits : Traits) : Style :=
  if traits.hasBreakSpace || traits.hasSpaceBreak || traits.hasSpecial then .double else .single

/-- The style of a text. -/
def style (text : String) : Style :=
  let cs := text.toList
  let traits := traits cs
  if '\n' ∈ cs then
    if traits.endsInSpace || traits.hasSpaceBreak || traits.hasSpecial then .double else .literal
  else if PlainText.isAmbiguous text || traits.hasOuterGap || traits.hasBreakSpace ||
      traits.hasSpaceBreak || traits.hasSpecial || traits.hasBreak || traits.hasIndicator then
    quotedStyle traits
  else .plain

/-! ## Scalars -/

/-- The indentation of lines that go on with an item. -/
def indentation : List Char := [' ', ' ']

/-- The text between single quotes; what follows a break is indented. -/
def singleBody : Bool → List Char → List Char
  | afterBreak, [] => if afterBreak then indentation else []
  | afterBreak, c :: rest =>
      if isBreak c then c :: singleBody true rest
      else
        (if afterBreak then indentation else []) ++
          (if c = '\x27' then ['\x27', '\x27'] else [c]) ++ singleBody false rest

/-- So many hexadecimal digits of a number. -/
def hexDigits (count n : Nat) : List Char :=
  (List.range count).map fun place =>
    (Json.hexDigit (n >>> (4 * (count - 1 - place)) % 16)).toUpper

/-- The letters of escapes. -/
def escapeLetters : List (Nat × Char) :=
  [(0x00, '0'), (0x07, 'a'), (0x08, 'b'), (0x09, 't'), (0x0A, 'n'), (0x0B, 'v'), (0x0C, 'f'),
    (0x0D, 'r'), (0x1B, 'e'), (0x22, '"'), (0x5C, '\\'), (0x85, 'N'), (0xA0, '_'),
    (0x2028, 'L'), (0x2029, 'P')]

/-- The escape of a character. -/
def escape (c : Char) : List Char :=
  let n := c.toNat
  match escapeLetters.lookup n with
  | some letter => ['\\', letter]
  | none =>
      if n ≤ 0xFF then '\\' :: 'x' :: hexDigits 2 n
      else if n ≤ 0xFFFF then '\\' :: 'u' :: hexDigits 4 n
      else '\\' :: 'U' :: hexDigits 8 n

/-- A character between double quotes. -/
def doubleChar (c : Char) : List Char :=
  if !isPrintable c || isBreak c || c = '"' || c = '\\' then escape c else [c]

/-- The lines of a literal block; what follows a break is indented. -/
def literalBody : Bool → List Char → List Char
  | _, [] => []
  | afterBreak, c :: rest =>
      if isBreak c then c :: literalBody true rest
      else (if afterBreak then indentation else []) ++ c :: literalBody false rest

/-- The sign for what follows the last line: nothing, one break, or more. -/
def chomping (cs : List Char) : List Char :=
  match cs.reverse with
  | [] => ['-']
  | [last] => if isBreak last then ['+'] else ['-']
  | last :: before :: _ => if !isBreak last then ['-'] else if isBreak before then ['+'] else []

/-- The head of a literal block. -/
def literalHead (cs : List Char) : List Char :=
  let hint := if cs.head?.any fun c => isSpace c || isBreak c then ['2'] else []
  '|' :: hint ++ chomping cs ++ ['\n']

/-- A text as a scalar. -/
def scalar (text : String) : List Char :=
  let cs := text.toList
  match style text with
  | .plain => cs
  | .single => '\x27' :: singleBody false cs ++ ['\x27']
  | .double => '"' :: cs.flatMap doubleChar ++ ['"']
  | .literal => literalHead cs ++ literalBody true cs

/-! ## Lists -/

/-- A text as an item, with the end of its line. -/
def item (text : String) : List Char :=
  let written := scalar text
  let ending := if style text = .literal && written.getLast?.any isBreak then [] else ['\n']
  '-' :: ' ' :: written ++ ending

/-- A key with the list of its texts. -/
def listing (key : String) (texts : List String) : List Char :=
  if texts.isEmpty then key.toList ++ ": []\n".toList
  else key.toList ++ ":\n".toList ++ texts.flatMap item

/-! ## Facts -/

/-- A text that could be taken for something else is never plain. -/
theorem style_ambiguous {text : String} (ambiguous : PlainText.isAmbiguous text = true) :
    style text ≠ .plain := by
  unfold style quotedStyle
  simp only [ambiguous, Bool.true_or, ite_true]
  split
  · split <;> simp
  · split <;> simp

end DependencyAudit.Yaml.Printer
