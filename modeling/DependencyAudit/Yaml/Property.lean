/-
# DependencyAudit.Yaml.Property -- tags, anchors and directives

A node may carry a tag (`!handle!suffix`, `!suffix` or `!<whole>`) and an anchor
(`&name`), and may be an alias (`*name`) of an anchored one.  A line that starts
with a percent sign is a directive: the version of the format, or the meaning of
a tag handle.
-/
import DependencyAudit.Text.Utf8
import DependencyAudit.Yaml.FlowScalar
import DependencyAudit.Yaml.Token

namespace DependencyAudit.Yaml.Property

open DependencyAudit.Text

set_option autoImplicit false

/-! ## Anchors and aliases -/

/-- Characters that may follow a name at once. -/
def isNameEnd (c : Char) : Bool :=
  isSpaceOrTab c || isBreak c || c = '?' || c = ':' || c = ',' || c = ']' || c = '}' || c = '%' ||
    c = '@' || c = '\x60'

/-- Reads the name of an anchor or alias after its mark. -/
def readName (cursor : Cursor) : Option (List Char × Cursor) :=
  let (name, after) := cursor.takeWhile isWordChar
  if name.isEmpty || !(after.at? 0).all isNameEnd then none else some (name, after)

/-! ## Tags -/

/-- Reads a handle: an exclamation mark, a word, and a second mark.  In a tag the
second mark may be missing, in a directive only after an empty word. -/
def readHandle (directive : Bool) (cursor : Cursor) : Option (List Char × Cursor) :=
  if cursor.has '!' 0 then
    let (word, after) := cursor.step.takeWhile isWordChar
    if after.has '!' 0 then some ('!' :: word ++ ['!'], after.step)
    else if directive && !word.isEmpty then none
    else some ('!' :: word, after)
  else none

/-- Characters of a tag that stand for themselves; a tag in brackets has some
more. -/
def isTagChar (bracketed : Bool) (c : Char) : Bool :=
  isWordChar c || c = ';' || c = '/' || c = '?' || c = ':' || c = '@' || c = '&' || c = '=' ||
    c = '+' || c = '$' || c = '.' || c = '!' || c = '~' || c = '*' || c = '\x27' || c = '(' ||
    c = ')' || (bracketed && (c = ',' || c = '[' || c = ']'))

/-- Reads the octet of an escape of percent sign and two digits. -/
def readOctet (cursor : Cursor) : Option (UInt8 × Cursor) :=
  if cursor.has '%' 0 then
    let digits := (cursor.rest.drop 1).take 2
    if digits.length = 2 then
      (hexNumber? digits).map fun n => (UInt8.ofNat n, cursor.steps 3)
    else none
  else none

/-- The number of octets of a character whose first one is given. -/
def octetCount? (octet : UInt8) : Option Nat :=
  let n := octet.toNat
  if n < 0x80 then some 1
  else if 0xC0 ≤ n ∧ n < 0xE0 then some 2
  else if 0xE0 ≤ n ∧ n < 0xF0 then some 3
  else if 0xF0 ≤ n ∧ n < 0xF8 then some 4
  else none

/-- Reads some escaped octets. -/
def readOctets : Nat → Cursor → Option (List UInt8 × Cursor)
  | 0, cursor => some ([], cursor)
  | count + 1, cursor => do
      let (octet, after) ← readOctet cursor
      let (octets, after) ← readOctets count after
      return (octet :: octets, after)

/-- Reads a character whose octets are escaped. -/
def readEscaped (cursor : Cursor) : Option (List Char × Cursor) := do
  let (octet, _) ← readOctet cursor
  let count ← octetCount? octet
  let (octets, after) ← readOctets count cursor
  return (← Utf8.decode? octets, after)

/-- Reads the characters of a tag, given those read of it. -/
def readTagText (bracketed : Bool) : Nat → List Char → Cursor → Option (List Char × Cursor)
  | 0, _, _ => none
  | budget + 1, text, cursor =>
      if cursor.has '%' 0 then do
        let (cs, after) ← readEscaped cursor
        readTagText bracketed budget (text ++ cs) after
      else match cursor.at? 0 with
        | some c =>
            if isTagChar bracketed c then readTagText bracketed budget (text ++ [c]) cursor.step
            else some (text, cursor)
        | none => some (text, cursor)

/-- Reads the text of a tag that starts with what was read of a handle. -/
def readSuffix (bracketed : Bool) (start : List Char) (cursor : Cursor) :
    Option (List Char × Cursor) := do
  let (text, after) ← readTagText bracketed (cursor.rest.length + 1) start cursor
  if text.isEmpty && start.isEmpty then none else return (text, after)

/-- Reads a tag that names its handle, if any: handle and suffix. -/
def readShortTag (cursor : Cursor) : Option (Token × Cursor) := do
  let (handle, after) ← readHandle false cursor
  if 2 ≤ handle.length ∧ handle.getLast? = some '!' then
    let (suffix, after) ← readSuffix false [] after
    return (.tag handle suffix, after)
  else
    let (suffix, after) ← readTagText false (after.rest.length + 1) (handle.drop 1) after
    if suffix.isEmpty then return (.tag [] ['!'], after) else return (.tag ['!'] suffix, after)

/-- Reads a tag between angle brackets. -/
def readWholeTag (cursor : Cursor) : Option (Token × Cursor) := do
  let (suffix, after) ← readSuffix true [] (cursor.steps 2)
  if after.has '>' 0 then return (.tag [] suffix, after.step) else none

/-- Reads a tag, which a gap must follow, or a comma inside of flow brackets. -/
def readTag (inFlow : Bool) (cursor : Cursor) : Option (Token × Cursor) := do
  let (token, after) ← if cursor.has '<' 1 then readWholeTag cursor else readShortTag cursor
  if after.isGap 0 || (inFlow && after.has ',' 0) then return (token, after) else none

/-! ## Directives -/

/-- Reads a number of at most nine digits. -/
def readVersionNumber (cursor : Cursor) : Option (Nat × Cursor) :=
  let (digits, after) := cursor.takeWhile Char.isDigit
  if digits.isEmpty || 9 < digits.length then none
  else some (digits.foldl (fun value c => value * 10 + (c.toNat - '0'.toNat)) 0, after)

/-- Reads the numbers of a version directive. -/
def readVersion (cursor : Cursor) : Option (Token × Cursor) := do
  let (major, after) ← readVersionNumber (cursor.dropWhile isSpaceOrTab)
  if after.has '.' 0 then
    let (minor, after) ← readVersionNumber after.step
    return (.versionDirective major minor, after)
  else none

/-- Reads the handle and the meaning of a tag directive. -/
def readTagMeaning (cursor : Cursor) : Option (Token × Cursor) := do
  let (handle, after) ← readHandle true (cursor.dropWhile isSpaceOrTab)
  if (after.next isSpaceOrTab) then
    let (meaning, after) ← readSuffix true [] (after.dropWhile isSpaceOrTab)
    if after.isGap 0 then return (.tagDirective handle meaning, after) else none
  else none

/-- Passes over blanks and a comment, and over the line break. -/
def endLine (cursor : Cursor) : Option Cursor :=
  let cursor := cursor.dropWhile isSpaceOrTab
  let cursor := if cursor.has '#' 0 then cursor.toLineEnd else cursor
  if cursor.isEnd then some cursor
  else if cursor.next isBreak then some (cursor.stepBreak).2
  else none

/-- Reads a directive from its percent sign to the end of its line. -/
def readDirective (cursor : Cursor) : Option (Token × Cursor) := do
  let (name, after) := cursor.step.takeWhile isWordChar
  if name.isEmpty || !after.isGap 0 then none
  else
    let (token, after) ←
      if name = "YAML".toList then readVersion after
      else if name = "TAG".toList then readTagMeaning after
      else none
    return (token, ← endLine after)

end DependencyAudit.Yaml.Property
