/-
# DependencyAudit.Yaml.Lexer -- a YAML text to tokens

Outside of flow brackets the indentation of a line says which blocks end there
and which begin.  A key needs no mark of its own: where a scalar, an alias or a
bracket could be a key, the lexer remembers its place, and when a colon follows
on the same line, the mark of a key, and the start of a mapping if one begins
there, are put in at that place.

`Lexer.next` reads one more token, and with it those that the indentation calls
for.  It passes over a character at least, so the length of the text bounds the
number of its uses.
-/
import DependencyAudit.Yaml.BlockScalar
import DependencyAudit.Yaml.Property

namespace DependencyAudit.Yaml

set_option autoImplicit false

/-- A place where a key may have begun. -/
structure KeyPlace where
  /-- Nothing but a key can stand there. -/
  required : Bool
  /-- The number of tokens before it. -/
  position : Nat
  index : Nat
  line : Nat
  column : Nat
deriving Repr, DecidableEq

/-- The state of the lexer. -/
structure Lexer where
  cursor : Cursor
  tokens : List Token
  /-- One more than the column of the innermost block; 0 outside of all. -/
  indent : Nat
  /-- The same for the blocks around it, innermost first. -/
  outerIndents : List Nat
  /-- Whether a key may begin here. -/
  keyAllowed : Bool
  /-- Where a key may have begun, for the innermost flow bracket. -/
  keyPlace : Option KeyPlace
  /-- The same for the brackets around it, innermost first. -/
  outerKeyPlaces : List (Option KeyPlace)
deriving Repr, DecidableEq

namespace Lexer

def ofChars (cs : List Char) : Lexer where
  cursor := .ofChars cs
  tokens := []
  indent := 0
  outerIndents := []
  keyAllowed := true
  keyPlace := none
  outerKeyPlaces := []

def inFlow (lexer : Lexer) : Bool :=
  !lexer.outerKeyPlaces.isEmpty

def push (lexer : Lexer) (token : Token) : Lexer :=
  { lexer with tokens := lexer.tokens ++ [token] }

/-- Puts a token in at some position. -/
def insertAt (lexer : Lexer) (position : Nat) (token : Token) : Lexer :=
  { lexer with tokens := lexer.tokens.take position ++ token :: lexer.tokens.drop position }

/-! ## Between tokens -/

/-- Passes over blanks, comments and line breaks, and at the start of a line over a
byte order mark, which takes a column. -/
def skipGap : Nat → Lexer → Lexer
  | 0, lexer => lexer
  | budget + 1, lexer =>
      let cursor := lexer.cursor
      if cursor.column = 0 && cursor.next isByteOrderMark then
        skipGap budget { lexer with cursor := cursor.step }
      else if cursor.next fun c => c = ' ' || (c = '\t' && (lexer.inFlow || !lexer.keyAllowed)) then
        skipGap budget { lexer with cursor := cursor.step }
      else if cursor.has '#' 0 then skipGap budget { lexer with cursor := cursor.toLineEnd }
      else if cursor.next isBreak then
        skipGap budget { lexer with
          cursor := (cursor.stepBreak).2
          keyAllowed := lexer.keyAllowed || !lexer.inFlow }
      else lexer

/-- Whether a key that began at some place cannot end here any more: it must stay on
its line, and takes 1024 octets at most. -/
def isStale (cursor : Cursor) (place : KeyPlace) : Bool :=
  place.line < cursor.line || place.index + 1024 < cursor.index

/-- A place of a key, forgotten if it is too far back; a fault if a key was
required there. -/
def refresh (cursor : Cursor) : Option KeyPlace → Option (Option KeyPlace)
  | some place =>
      if isStale cursor place then if place.required then none else some none
      else some (some place)
  | none => some none

/-- Forgets the places that are too far back. -/
def forgetStale (lexer : Lexer) : Option Lexer := do
  let keyPlace ← refresh lexer.cursor lexer.keyPlace
  let outerKeyPlaces ← lexer.outerKeyPlaces.mapM (refresh lexer.cursor)
  return { lexer with keyPlace, outerKeyPlaces }

/-! ## Blocks -/

/-- Ends the blocks indented more than a column, given as one more than it. -/
def endBlocks (floor : Nat) : List Nat → Lexer → Lexer
  | [], lexer => lexer
  | outer :: others, lexer =>
      if floor < lexer.indent then
        endBlocks floor others
          { lexer with
            tokens := lexer.tokens ++ [.blockEnd], indent := outer, outerIndents := others }
      else lexer

/-- Ends the blocks indented more than a column, given as one more than it. -/
def unroll (lexer : Lexer) (floor : Nat) : Lexer :=
  if lexer.inFlow then lexer else endBlocks floor lexer.outerIndents lexer

/-- Begins a block at a column, unless one is indented so much already. -/
def roll (lexer : Lexer) (column position : Nat) (token : Token) : Lexer :=
  if !lexer.inFlow && lexer.indent ≤ column then
    { lexer.insertAt position token with
      indent := column + 1
      outerIndents := lexer.indent :: lexer.outerIndents }
  else lexer

/-- Gives up the place of a key; a fault if a key was required there. -/
def dropKeyPlace (lexer : Lexer) : Option Lexer :=
  if lexer.keyPlace.any KeyPlace.required then none else some { lexer with keyPlace := none }

/-- Remembers that a key may begin here. -/
def saveKeyPlace (lexer : Lexer) : Option Lexer :=
  if lexer.keyAllowed then
    lexer.dropKeyPlace.map fun cleared =>
      { cleared with
        keyPlace := some {
          required := !lexer.inFlow && lexer.indent = lexer.cursor.column + 1
          position := lexer.tokens.length
          index := lexer.cursor.index
          line := lexer.cursor.line
          column := lexer.cursor.column } }
  else some lexer

/-! ## Tokens -/

/-- A token of some characters, after which a key may or may not begin. -/
def mark (lexer : Lexer) (token : Token) (width : Nat) (keyAllowed : Bool) : Lexer :=
  { lexer.push token with cursor := lexer.cursor.steps width, keyAllowed }

def readEnd (lexer : Lexer) : Option Lexer :=
  (lexer.unroll 0).dropKeyPlace.map fun cleared => cleared.mark .streamEnd 0 false

def readDirective (lexer : Lexer) : Option Lexer := do
  let cleared ← (lexer.unroll 0).dropKeyPlace
  let (token, cursor) ← Property.readDirective cleared.cursor
  return { cleared.push token with cursor, keyAllowed := false }

def readMarker (lexer : Lexer) (token : Token) : Option Lexer :=
  (lexer.unroll 0).dropKeyPlace.map fun cleared => cleared.mark token 3 false

def readFlowStart (lexer : Lexer) (token : Token) : Option Lexer :=
  lexer.saveKeyPlace.map fun saved =>
    { saved.mark token 1 true with
      keyPlace := none
      outerKeyPlaces := saved.keyPlace :: saved.outerKeyPlaces }

def readFlowEnd (lexer : Lexer) (token : Token) : Option Lexer :=
  lexer.dropKeyPlace.map fun cleared =>
    let outer := match cleared.outerKeyPlaces with
      | place :: others => { cleared with keyPlace := place, outerKeyPlaces := others }
      | [] => cleared
    outer.mark token 1 false

def readFlowEntry (lexer : Lexer) : Option Lexer :=
  lexer.dropKeyPlace.map fun cleared => cleared.mark .flowEntry 1 true

/-- Begins a block here if need be; a fault where none may begin. -/
def rollHere (lexer : Lexer) (token : Token) : Option Lexer :=
  if lexer.inFlow then some lexer
  else if lexer.keyAllowed then some (lexer.roll lexer.cursor.column lexer.tokens.length token)
  else none

def readBlockEntry (lexer : Lexer) : Option Lexer := do
  let rolled ← lexer.rollHere .blockSequenceStart
  return (← rolled.dropKeyPlace).mark .blockEntry 1 true

def readKey (lexer : Lexer) : Option Lexer := do
  let rolled ← lexer.rollHere .blockMappingStart
  return (← rolled.dropKeyPlace).mark .key 1 (!lexer.inFlow)

def readValue (lexer : Lexer) : Option Lexer :=
  match lexer.keyPlace with
  | some place =>
      let keyed := lexer.insertAt place.position .key
      let rolled := keyed.roll place.column place.position .blockMappingStart
      some ({ rolled with keyPlace := none }.mark .value 1 false)
  | none =>
      (lexer.rollHere .blockMappingStart).map fun rolled => rolled.mark .value 1 (!lexer.inFlow)

/-- A token that may be a key, after which none may begin. -/
def readKeyLike (lexer : Lexer) (read : Cursor → Option (Token × Cursor)) : Option Lexer := do
  let saved ← lexer.saveKeyPlace
  let (token, cursor) ← read saved.cursor
  return { saved.push token with cursor, keyAllowed := false }

def readName (token : List Char → Token) (cursor : Cursor) : Option (Token × Cursor) :=
  (Property.readName cursor.step).map fun (name, after) => (token name, after)

def readQuoted (double : Bool) (cursor : Cursor) : Option (Token × Cursor) :=
  (Yaml.readQuoted double (cursor.rest.length + 1) [] cursor.step).map fun (text, after) =>
    (.scalar text (if double then .doubleQuoted else .singleQuoted), after)

def readBlockScalar (lexer : Lexer) (folded : Bool) : Option Lexer := do
  let cleared ← lexer.dropKeyPlace
  let (text, cursor) ← BlockScalar.read folded lexer.indent cleared.cursor.step
  return { cleared.push (.scalar text (if folded then .folded else .literal)) with
    cursor, keyAllowed := true }

def readPlain (lexer : Lexer) : Option Lexer := do
  let saved ← lexer.saveKeyPlace
  let plain ← Yaml.readPlain lexer.inFlow lexer.indent (lexer.cursor.rest.length + 1) [] .none
    saved.cursor
  return { saved.push (.scalar plain.text .plain) with
    cursor := plain.cursor, keyAllowed := plain.broken }

/-- Marks that no plain scalar starts with. -/
def isIndicator (c : Char) : Bool :=
  c = '-' || c = '?' || c = ':' || c = ',' || c = '[' || c = ']' || c = '{' || c = '}' || c = '#' ||
    c = '&' || c = '*' || c = '!' || c = '|' || c = '>' || c = '\x27' || c = '"' || c = '%' ||
    c = '@' || c = '`'

/-- Whether a plain scalar starts here. -/
def startsPlain (lexer : Lexer) (c : Char) : Bool :=
  (!isIndicator c && !isSpaceOrTab c) || (c = '-' && !(lexer.cursor.at? 1).any isSpaceOrTab) ||
    (!lexer.inFlow && (c = '?' || c = ':') && !lexer.cursor.isGap 1)

/-- Reads the token that starts with a character. -/
def readFrom (lexer : Lexer) (c : Char) : Option Lexer :=
  let cursor := lexer.cursor
  if cursor.column = 0 && c = '%' then lexer.readDirective
  else if cursor.isMarker '-' then lexer.readMarker .documentStart
  else if cursor.isMarker '.' then lexer.readMarker .documentEnd
  else if c = '[' then lexer.readFlowStart .flowSequenceStart
  else if c = '{' then lexer.readFlowStart .flowMappingStart
  else if c = ']' then lexer.readFlowEnd .flowSequenceEnd
  else if c = '}' then lexer.readFlowEnd .flowMappingEnd
  else if c = ',' then lexer.readFlowEntry
  else if c = '-' && cursor.isGap 1 then lexer.readBlockEntry
  else if c = '?' && (lexer.inFlow || cursor.isGap 1) then lexer.readKey
  else if c = ':' && (lexer.inFlow || cursor.isGap 1) then lexer.readValue
  else if c = '*' then lexer.readKeyLike (readName .aliasOf)
  else if c = '&' then lexer.readKeyLike (readName .anchor)
  else if c = '!' then lexer.readKeyLike (Property.readTag lexer.inFlow)
  else if c = '|' && !lexer.inFlow then lexer.readBlockScalar false
  else if c = '>' && !lexer.inFlow then lexer.readBlockScalar true
  else if c = '\x27' then lexer.readKeyLike (readQuoted false)
  else if c = '"' then lexer.readKeyLike (readQuoted true)
  else if lexer.startsPlain c then lexer.readPlain
  else none

/-- Reads one more token. -/
def next (lexer : Lexer) : Option Lexer := do
  let fresh ← (lexer.skipGap (lexer.cursor.rest.length + 1)).forgetStale
  let current := fresh.unroll (fresh.cursor.column + 1)
  match current.cursor.at? 0 with
  | some c => current.readFrom c
  | none => current.readEnd

/-- Reads tokens to the end. -/
def run : Nat → Lexer → Option (List Token)
  | 0, _ => none
  | budget + 1, lexer => do
      let more ← lexer.next
      if more.tokens.getLast? = some .streamEnd then return more.tokens
      else run budget more

end Lexer

/-- The tokens of a text. -/
def tokens? (cs : List Char) : Option (List Token) :=
  Lexer.run (cs.length + 2) (.ofChars cs)

end DependencyAudit.Yaml
