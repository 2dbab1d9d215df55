/-
# DependencyAudit.Toml.Number -- numbers and points in time of TOML

Integers are decimal with a sign and no leading zero, or hexadecimal, octal or
binary without a sign, and must fit 64 bits.  Floats have a fraction, an
exponent or both, and must not round to positive infinity.  An underscore may
stand between two digits.  Dates, times and both together must exist in the
calendar.

Only whether such a value is well formed matters here, so the readers leave what
follows it and give no value.
-/
import DependencyAudit.Decimal
import DependencyAudit.Toml.Lexeme

namespace DependencyAudit.Toml

set_option autoImplicit false

/-- Passes over something at the front of a text. -/
abbrev Skipper := List Char → Option (List Char)

/-! ## Digits -/

/-- Further digits of a class, single underscores between them left out.  An
underscore that no digit follows is refused. -/
def moreDigits (isDigit : Char → Bool) : Reader (List Char)
  | [] => some ([], [])
  | ['_'] => none
  | '_' :: c :: rest =>
      if isDigit c then (moreDigits isDigit rest).map fun (digits, after) => (c :: digits, after)
      else none
  | c :: rest =>
      if isDigit c then (moreDigits isDigit rest).map fun (digits, after) => (c :: digits, after)
      else some ([], c :: rest)

/-- One or more digits of a class. -/
def someDigits (isDigit : Char → Bool) : Reader (List Char)
  | [] => none
  | c :: rest =>
      if isDigit c then (moreDigits isDigit rest).map fun (digits, after) => (c :: digits, after)
      else none

/-- The digits of a decimal integer: a single zero, or no zero in front. -/
def decimalDigits : Reader (List Char)
  | '0' :: rest => some (['0'], rest)
  | cs => someDigits Char.isDigit cs

/-- An optional sign: whether it is a minus, and what follows. -/
def sign : List Char → Bool × List Char
  | '+' :: rest => (false, rest)
  | '-' :: rest => (true, rest)
  | cs => (false, cs)

/-! ## Numbers -/

/-- The digits after a point, if there is one. -/
def fraction : Reader (List Char)
  | '.' :: rest => someDigits Char.isDigit rest
  | cs => some ([], cs)

/-- The exponent, if there is one. -/
def exponent : Reader (Option Int)
  | 'e' :: rest => tenfold rest
  | 'E' :: rest => tenfold rest
  | cs => some (none, cs)
where
  /-- The sign and the digits of an exponent. -/
  tenfold (cs : List Char) : Option (Option Int × List Char) :=
    let (isNegative, digits) := sign cs
    (someDigits Char.isDigit digits).map fun (digits, after) =>
      let size := (Nat.ofDigitChars 10 digits 0 : Int)
      (some (if isNegative then -size else size), after)

/-- An integer to the base 10, or a float. -/
def decimalNumber? : Skipper := fun cs => do
  let (isNegative, unsigned) := sign cs
  let (whole, afterWhole) ← decimalDigits unsigned
  let (places, afterPlaces) ← fraction afterWhole
  let (power, after) ← exponent afterPlaces
  if places.isEmpty && power.isNone then
    let size := Nat.ofDigitChars 10 whole 0
    if size < Nat.pow 2 63 || (isNegative && size = Nat.pow 2 63) then some after else none
  else
    let decimal : Decimal := ⟨Nat.ofDigitChars 10 (whole ++ places) 0, power.getD 0 - places.length⟩
    if isNegative || decimal.isFinite then some after else none

/-- An integer to another base, after the letter that announces it. -/
def basedNumber? (base : Nat) (isDigit : Char → Bool) : Skipper := fun cs =>
  match someDigits isDigit cs with
  | some (digits, after) => if valueOf base digits < Nat.pow 2 63 then some after else none
  | none => none

/-- The words that stand for floats. -/
def wordNumber? (cs : List Char) : Option (List Char) :=
  match (sign cs).2 with
  | 'i' :: 'n' :: 'f' :: rest => some rest
  | 'n' :: 'a' :: 'n' :: rest => some rest
  | _ => none

/-- A number of any kind. -/
def number? : Skipper
  | '0' :: 'x' :: rest => basedNumber? 16 isHexDigit rest
  | '0' :: 'o' :: rest => basedNumber? 8 (fun c => '0' ≤ c && c ≤ '7') rest
  | '0' :: 'b' :: rest => basedNumber? 2 (fun c => c = '0' || c = '1') rest
  | cs => (wordNumber? cs).orElse fun _ => decimalNumber? cs

/-! ## Points in time -/

/-- So many digits, whose value must lie in a range. -/
def field? (count low high : Nat) : Reader Nat := fun cs =>
  let digits := cs.take count
  let n := valueOf 10 digits
  if digits.length = count && digits.all Char.isDigit && low ≤ n && n ≤ high then
    some (n, cs.drop count)
  else none

/-- Passes over a given character. -/
def mark? (c : Char) : Skipper
  | [] => none
  | first :: rest => if first = c then some rest else none

def daysOfMonth (year month : Nat) : Nat :=
  if month = 2 then
    if year % 4 = 0 && (year % 100 ≠ 0 || year % 400 = 0) then 29 else 28
  else if month = 4 || month = 6 || month = 9 || month = 11 then 30
  else 31

def date? : Skipper := fun cs => do
  let (year, cs) ← field? 4 0 9999 cs
  let (month, cs) ← field? 2 1 12 (← mark? '-' cs)
  let (_, cs) ← field? 2 1 (daysOfMonth year month) (← mark? '-' cs)
  return cs

/-- Digits after a point, where there are any. -/
def skipSecondFraction : List Char → List Char
  | '.' :: c :: rest => if c.isDigit then rest.dropWhile Char.isDigit else '.' :: c :: rest
  | cs => cs

/-- Hours, minutes and seconds; a sixtieth second may occur. -/
def time? : Skipper := fun cs => do
  let (_, cs) ← field? 2 0 23 cs
  let (_, cs) ← field? 2 0 59 (← mark? ':' cs)
  let (_, cs) ← field? 2 0 60 (← mark? ':' cs)
  return skipSecondFraction cs

/-- An offset from universal time, where there is one. -/
def skipOffset? : Skipper
  | 'Z' :: rest => some rest
  | 'z' :: rest => some rest
  | c :: rest =>
      if c = '+' || c = '-' then do
        let (_, cs) ← field? 2 0 23 rest
        let (_, cs) ← field? 2 0 59 (← mark? ':' cs)
        return cs
      else some (c :: rest)
  | [] => some []

/-- Whether a text starts with so many digits and then a given character. -/
def startsField (count : Nat) (c : Char) (cs : List Char) : Bool :=
  (cs.take count).length = count && (cs.take count).all Char.isDigit &&
    (cs.drop count).head? = some c

/-- What may follow a date: a time of day, itself with an offset. -/
def skipTimeOfDay? : Skipper
  | [] => some []
  | c :: rest =>
      if (c = 'T' || c = 't' || c = ' ') && startsField 2 ':' rest then do
        skipOffset? (← time? rest)
      else some (c :: rest)

/-- A date, a time, or both; `none` if neither starts here. -/
def instant? (cs : List Char) : Option (Option (List Char)) :=
  if startsField 4 '-' cs then some ((date? cs).bind skipTimeOfDay?)
  else if startsField 2 ':' cs then some (time? cs)
  else none

end DependencyAudit.Toml
