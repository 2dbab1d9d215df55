/-
# DependencyAudit.Json.Token -- the tokens of a JSON text

A JSON text is brackets, commas, colons, words, numbers and strings with blanks
between them.  The lexer reads one character at a time; a word or number ends
at the first character that cannot belong to it, which is then read afresh.

A string is collected as code points, an escape `\\uXXXX` as its code unit;
`joinUnits` pairs the surrogates at the end, leaves characters as they are
(`joinUnits_of_chars`), and gives nothing if a surrogate stays alone.  The text may
come from octets that are not all characters: `none` stands for a malformed stretch
of them.  Such a stretch may stand in a string only, which is then broken.
-/

namespace DependencyAudit.Json

set_option autoImplicit false

/-- A token of a JSON text. -/
inductive Token where
  | openBracket
  | closeBracket
  | openBrace
  | closeBrace
  | comma
  | colon
  | null
  | bool (value : Bool)
  | number (literal : String)
  | string (text : String)
  /-- A string with half of a surrogate pair, or a malformed stretch. -/
  | broken
deriving Repr, DecidableEq

namespace Token

/-! ## Strings -/

def isHighSurrogate (unit : Nat) : Bool :=
  0xD800 ≤ unit && unit < 0xDC00

def isLowSurrogate (unit : Nat) : Bool :=
  0xDC00 ≤ unit && unit < 0xE000

/-- Stands for a malformed stretch; it is one more than the last code point. -/
def malformed : Nat := 0x110000

/-- Whether a unit is no character when it stands alone. -/
def isIncomplete (unit : Nat) : Bool :=
  isHighSurrogate unit || isLowSurrogate unit || unit = malformed

/-- The characters of code points in which surrogates come in pairs. -/
def joinUnits : List Nat → Option (List Char)
  | [] => some []
  | [unit] => if isIncomplete unit then none else some [Char.ofNat unit]
  | unit :: next :: rest =>
      if isHighSurrogate unit then
        if isLowSurrogate next then
          (joinUnits rest).map
            (Char.ofNat (0x10000 + (unit - 0xD800) * 0x400 + (next - 0xDC00)) :: ·)
        else none
      else if isIncomplete unit then none
      else (joinUnits (next :: rest)).map (Char.ofNat unit :: ·)

/-- The string token of collected code points, latest first. -/
def ofUnits (reversed : List Nat) : Token :=
  match joinUnits reversed.reverse with
  | some cs => .string (String.ofList cs)
  | none => .broken

/-- The code point of a one-letter escape. -/
def escaped? (c : Char) : Option Nat :=
  if c = '"' || c = '\\' || c = '/' then some c.toNat
  else if c = 'b' then some 8
  else if c = 'f' then some 12
  else if c = 'n' then some 10
  else if c = 'r' then some 13
  else if c = 't' then some 9
  else none

def hexDigit? (c : Char) : Option Nat :=
  if '0' ≤ c && c ≤ '9' then some (c.toNat - '0'.toNat)
  else if 'a' ≤ c && c ≤ 'f' then some (c.toNat - 'a'.toNat + 10)
  else if 'A' ≤ c && c ≤ 'F' then some (c.toNat - 'A'.toNat + 10)
  else none

/-! ## Words and numbers -/

/-- Drops at least one digit. -/
def dropDigits? : List Char → Option (List Char)
  | c :: rest => if c.isDigit then some (rest.dropWhile Char.isDigit) else none
  | [] => none

/-- Drops the integer part: a zero, or digits that do not start with one. -/
def dropInteger? : List Char → Option (List Char)
  | '0' :: rest => some rest
  | cs => dropDigits? cs

def dropFraction? : List Char → Option (List Char)
  | '.' :: rest => dropDigits? rest
  | cs => some cs

def dropExponent? : List Char → Option (List Char)
  | c :: rest =>
      if c = 'e' || c = 'E' then
        match rest with
        | '+' :: digits | '-' :: digits => dropDigits? digits
        | digits => dropDigits? digits
      else some (c :: rest)
  | [] => some []

/-- Whether a text is a JSON number. -/
def isNumber (cs : List Char) : Bool :=
  let unsigned := match cs with
    | '-' :: rest => rest
    | _ => cs
  (do dropExponent? (← dropFraction? (← dropInteger? unsigned))) == some []

/-- The token of a word or number. -/
def ofWord? (cs : List Char) : Option Token :=
  if cs = "null".toList then some .null
  else if cs = "true".toList then some (.bool true)
  else if cs = "false".toList then some (.bool false)
  else if isNumber cs then some (.number (String.ofList cs))
  else none

def isWordChar (c : Char) : Bool :=
  c.isAlphanum || c = '-' || c = '+' || c = '.'

/-! ## The lexer -/

/-- What the lexer is inside of; texts latest character first. -/
inductive Place where
  | between
  | word (reversed : List Char)
  | text (reversed : List Nat)
  | escape (reversed : List Nat)
  /-- Inside the four digits of a code unit. -/
  | unit (reversed : List Nat) (due value : Nat)
deriving Repr, DecidableEq

/-- Reads a character between tokens. -/
def fresh (c : Char) : Option (Place × List Token) :=
  if c = ' ' || c = '\n' || c = '\t' || c = '\r' then some (.between, [])
  else if c = '[' then some (.between, [.openBracket])
  else if c = ']' then some (.between, [.closeBracket])
  else if c = '{' then some (.between, [.openBrace])
  else if c = '}' then some (.between, [.closeBrace])
  else if c = ',' then some (.between, [.comma])
  else if c = ':' then some (.between, [.colon])
  else if c = '"' then some (.text [], [])
  else if isWordChar c then some (.word [c], [])
  else none

/-- Reads a character. -/
def stepChar : Place → Char → Option (Place × List Token)
  | .between, c => fresh c
  | .word reversed, c =>
      if isWordChar c then some (.word (c :: reversed), [])
      else do
        let word ← ofWord? reversed.reverse
        let (place, tokens) ← fresh c
        return (place, word :: tokens)
  | .text reversed, c =>
      if c = '"' then some (.between, [ofUnits reversed])
      else if c = '\\' then some (.escape reversed, [])
      else if c.toNat < 0x20 then none
      else some (.text (c.toNat :: reversed), [])
  | .escape reversed, c =>
      if c = 'u' then some (.unit reversed 4 0, [])
      else (escaped? c).map fun unit => (.text (unit :: reversed), [])
  | .unit reversed due value, c =>
      (hexDigit? c).map fun digit =>
        if due ≤ 1 then (.text ((value * 16 + digit) :: reversed), [])
        else (.unit reversed (due - 1) (value * 16 + digit), [])

/-- Reads a character or a malformed stretch. -/
def step : Place → Option Char → Option (Place × List Token)
  | place, some c => stepChar place c
  | .text reversed, none => some (.text (malformed :: reversed), [])
  | _, none => none

/-- The tokens that the end of the text completes. -/
def finish : Place → Option (List Token)
  | .between => some []
  | .word reversed => (ofWord? reversed.reverse).map ([·])
  | _ => none

/-- The tokens of a text read from inside a place, after tokens that are given
latest first. -/
def scanFrom : Place → List Token → List (Option Char) → Option (List Token)
  | place, reversed, [] => (finish place).map fun tokens => reversed.reverse ++ tokens
  | place, reversed, unit :: rest =>
      match step place unit with
      | some (next, tokens) => scanFrom next (tokens.reverse ++ reversed) rest
      | none => none

/-- The tokens of a text. -/
def scan (units : List (Option Char)) : Option (List Token) :=
  scanFrom .between [] units

/-! ## Facts -/

theorem not_surrogate (c : Char) :
    isHighSurrogate c.toNat = false ∧ isLowSurrogate c.toNat = false := by
  have valid : c.toNat < 0xD800 ∨ 0xDFFF < c.toNat ∧ c.toNat < 0x110000 := c.valid
  constructor
  · simp only [isHighSurrogate, Bool.and_eq_false_iff, decide_eq_false_iff_not]
    omega
  · simp only [isLowSurrogate, Bool.and_eq_false_iff, decide_eq_false_iff_not]
    omega

theorem not_incomplete (c : Char) : isIncomplete c.toNat = false := by
  have valid : c.toNat < 0xD800 ∨ 0xDFFF < c.toNat ∧ c.toNat < 0x110000 := c.valid
  have other : c.toNat ≠ malformed := by
    simp only [malformed]
    omega
  simp [isIncomplete, not_surrogate c, other]

theorem joinUnits_of_chars : ∀ cs : List Char, joinUnits (cs.map Char.toNat) = some cs
  | [] => rfl
  | [c] => by simp [joinUnits, not_incomplete c]
  | c :: d :: rest => by
      have tail := joinUnits_of_chars (d :: rest)
      simp only [List.map_cons] at tail ⊢
      simp [joinUnits, not_surrogate c, not_incomplete c, tail]

end Token

end DependencyAudit.Json
