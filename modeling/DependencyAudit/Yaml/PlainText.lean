/-
# DependencyAudit.Yaml.PlainText -- what a plain scalar can be taken for

A scalar without quotes may stand for nothing, for a flag or for a number, and only
otherwise for its own text.  Integers are decimal, hexadecimal, octal or binary with
an optional sign, and fit 128 bits; floats are decimals that are finite as doubles,
or words with a point in front.  Digits after a leading zero are not a number, but
other readers may take them for one, so `isAmbiguous` counts them among the texts
that need quotes, with those that stand for nothing or for a flag
(`isAmbiguous_of_isNull`, `isAmbiguous_of_flag`).
-/
import DependencyAudit.Decimal

namespace DependencyAudit.Yaml.PlainText

set_option autoImplicit false

/-- The spellings of nothing. -/
def isNull (text : String) : Bool :=
  text = "null" || text = "Null" || text = "NULL" || text = "~"

/-- The flag that a text spells. -/
def flag? (text : String) : Option Bool :=
  if text = "true" || text = "True" || text = "TRUE" then some true
  else if text = "false" || text = "False" || text = "FALSE" then some false
  else none

/-! ## Integers -/

/-- The value of a digit to a base of at most 16. -/
def digitValue? (base : Nat) (c : Char) : Option Nat :=
  let value :=
    if c.isDigit then c.toNat - '0'.toNat
    else if 'a' ≤ c && c ≤ 'f' then c.toNat - 'a'.toNat + 10
    else if 'A' ≤ c && c ≤ 'F' then c.toNat - 'A'.toNat + 10
    else base
  if value < base then some value else none

/-- The value of digits to a base, at least one. -/
def valueOf? (base : Nat) (digits : List Char) : Option Nat :=
  if digits.isEmpty then none
  else digits.foldlM (fun value c => (digitValue? base c).map (value * base + ·)) 0

/-- A sign: whether it is a minus, and the text after it. -/
def sign : List Char → Bool × List Char
  | '+' :: rest => (false, rest)
  | '-' :: rest => (true, rest)
  | cs => (false, cs)

/-- The base that a prefix announces, and the digits after it. -/
def based : List Char → Nat × List Char
  | '0' :: 'x' :: rest => (16, rest)
  | '0' :: 'o' :: rest => (8, rest)
  | '0' :: 'b' :: rest => (2, rest)
  | cs => (10, cs)

/-- Several digits of which the first is a zero. -/
def isPadded (cs : List Char) : Bool :=
  match (sign cs).2 with
  | '0' :: c :: rest => (c :: rest).all Char.isDigit
  | _ => false

/-- An integer of 128 bits. -/
def isInteger (cs : List Char) : Bool :=
  let (isNegative, unsigned) := sign cs
  let (base, digits) := based unsigned
  !isPadded cs &&
    match valueOf? base digits with
    | some value => if isNegative then value ≤ Nat.pow 2 127 else value < Nat.pow 2 128
    | none => false

/-! ## Floats -/

/-- The exponent after its letter, or zero if there is none. -/
def exponent? : List Char → Option Int
  | [] => some 0
  | c :: rest =>
      if c = 'e' || c = 'E' then
        let (isNegative, digits) := sign rest
        if digits.isEmpty || !digits.all Char.isDigit then none
        else
          let size := (Nat.ofDigitChars 10 digits 0 : Int)
          some (if isNegative then -size else size)
      else none

/-- The decimal that a text without sign spells: digits with an optional point
among or around them, and an optional exponent. -/
def decimal? (cs : List Char) : Option Decimal :=
  let whole := cs.takeWhile Char.isDigit
  let (places, rest) := match cs.dropWhile Char.isDigit with
    | '.' :: rest => (rest.takeWhile Char.isDigit, rest.dropWhile Char.isDigit)
    | rest => ([], rest)
  if (whole ++ places).isEmpty then none
  else (exponent? rest).map fun power =>
    ⟨Nat.ofDigitChars 10 (whole ++ places) 0, power - places.length⟩

/-- A finite float, or one of the words for other floats. -/
def isFloat (cs : List Char) : Bool :=
  let unsigned := (sign cs).2
  let text := String.ofList unsigned
  text = ".inf" || text = ".Inf" || text = ".INF" ||
    String.ofList cs = ".nan" || String.ofList cs = ".NaN" || String.ofList cs = ".NAN" ||
    (decimal? unsigned).any Decimal.isFinite

/-! ## Texts -/

/-- Whether a text without quotes could be taken for something else. -/
def isAmbiguous (text : String) : Bool :=
  text.isEmpty || isNull text || (flag? text).isSome || isInteger text.toList ||
    isPadded text.toList || isFloat text.toList

/-! ## Facts -/

theorem isAmbiguous_of_isNull {text : String} (null : isNull text = true) :
    isAmbiguous text = true := by
  simp [isAmbiguous, null]

theorem isAmbiguous_of_flag {text : String} {flag : Bool} (spelled : flag? text = some flag) :
    isAmbiguous text = true := by
  simp [isAmbiguous, spelled]

end DependencyAudit.Yaml.PlainText
