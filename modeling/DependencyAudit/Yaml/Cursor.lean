/-
# DependencyAudit.Yaml.Cursor -- a place in a YAML text

A cursor is what is left of a text together with the line and column it starts
at.  `step` passes over one character, `stepBreak` over one line break, which
leaves less unless nothing was left (`length_step`, `length_stepBreak`), and
`takeWhile` over characters of a class.  Lines and columns count characters, but
the index counts octets, so that a limit on the length of a key is one on its
octets.

Breaks are line feeds, carriage returns, both together, and three further
separators of Unicode; all but the last two of these read as a line feed.
-/

namespace DependencyAudit.Yaml

set_option autoImplicit false

/-! ## Classes of characters -/

/-- A space or a tab. -/
def isSpaceOrTab (c : Char) : Bool :=
  c = ' ' || c = '\t'

def isBreak (c : Char) : Bool :=
  c = '\r' || c = '\n' || c.toNat = 0x85 || c.toNat = 0x2028 || c.toNat = 0x2029

/-- A letter or digit of ASCII, an underscore or a hyphen. -/
def isWordChar (c : Char) : Bool :=
  c.isAlphanum || c = '_' || c = '-'

/-- Characters that a text may hold. -/
def isAllowed (c : Char) : Bool :=
  let n := c.toNat
  n = 0x09 || n = 0x0A || n = 0x0D || (0x20 ≤ n && n ≤ 0x7E) || n = 0x85 ||
    (0xA0 ≤ n && n ≤ 0xFFFD) || 0x10000 ≤ n

/-- A mark that says nothing where it starts a line between two tokens. -/
def isByteOrderMark (c : Char) : Bool :=
  c.toNat = 0xFEFF

/-! ## Cursors -/

/-- What is left of a text, and where it starts. -/
structure Cursor where
  rest : List Char
  /-- The number of octets before it. -/
  index : Nat
  line : Nat
  column : Nat
deriving Repr, DecidableEq

namespace Cursor

def ofChars (cs : List Char) : Cursor := ⟨cs, 0, 0, 0⟩

/-- The character some places ahead. -/
def at? (cursor : Cursor) (ahead : Nat) : Option Char :=
  cursor.rest[ahead]?

def isEnd (cursor : Cursor) : Bool :=
  cursor.rest.isEmpty

/-- Whether a given character stands some places ahead. -/
def has (cursor : Cursor) (c : Char) (ahead : Nat) : Bool :=
  cursor.at? ahead = some c

/-- Whether a character of some class is next. -/
def next (cursor : Cursor) (p : Char → Bool) : Bool :=
  (cursor.at? 0).any p

/-- Whether some places ahead there is a blank, a break or the end. -/
def isGap (cursor : Cursor) (ahead : Nat) : Bool :=
  (cursor.at? ahead).all fun c => isSpaceOrTab c || isBreak c

/-- Whether a line that holds a document marker starts here. -/
def isMarker (cursor : Cursor) (c : Char) : Bool :=
  cursor.column = 0 && cursor.has c 0 && cursor.has c 1 && cursor.has c 2 && cursor.isGap 3

def isAnyMarker (cursor : Cursor) : Bool :=
  cursor.isMarker '-' || cursor.isMarker '.'

/-- Passes over a character that is no break. -/
def step (cursor : Cursor) : Cursor :=
  match cursor.rest with
  | [] => cursor
  | c :: rest => ⟨rest, cursor.index + c.utf8Size, cursor.line, cursor.column + 1⟩

/-- Passes over some characters. -/
def steps : Nat → Cursor → Cursor
  | 0, cursor => cursor
  | count + 1, cursor => steps count cursor.step

/-- Passes over a break and gives what it reads as. -/
def stepBreak (cursor : Cursor) : List Char × Cursor :=
  match cursor.rest with
  | '\r' :: '\n' :: rest => (['\n'], ⟨rest, cursor.index + 2, cursor.line + 1, 0⟩)
  | c :: rest =>
      (if c.toNat = 0x2028 ∨ c.toNat = 0x2029 then [c] else ['\n'],
        ⟨rest, cursor.index + c.utf8Size, cursor.line + 1, 0⟩)
  | [] => ([], cursor)

/-- Passes over the characters of a class, which holds no break, and gives them. -/
def takeWhile (cursor : Cursor) (p : Char → Bool) : List Char × Cursor :=
  let taken := cursor.rest.takeWhile p
  (taken, ⟨cursor.rest.drop taken.length,
    taken.foldl (fun index c => index + c.utf8Size) cursor.index,
    cursor.line, cursor.column + taken.length⟩)

def dropWhile (cursor : Cursor) (p : Char → Bool) : Cursor :=
  (cursor.takeWhile p).2

/-- The end of the line. -/
def toLineEnd (cursor : Cursor) : Cursor :=
  cursor.dropWhile fun c => !isBreak c

/-! ## Facts -/

theorem length_step (cursor : Cursor) : cursor.step.rest.length = cursor.rest.length - 1 := by
  unfold step
  split
  · rename_i empty
    simp [empty]
  · rename_i more
    simp [more]

theorem length_stepBreak (cursor : Cursor) (more : cursor.rest ≠ []) :
    (cursor.stepBreak).2.rest.length < cursor.rest.length := by
  unfold stepBreak
  split
  · rename_i shape
    simp only [shape, List.length_cons]
    omega
  · rename_i shape
    simp [shape]
  · rename_i empty
    exact absurd empty more

end Cursor

end DependencyAudit.Yaml
