/-
# DependencyAudit.Toml.Lexeme -- blanks, keys and strings of TOML

A reader takes something from the front of a text and leaves what follows it, or
refuses.  Readers here cover what numbers, values and sections have in common:
blanks, comments and line ends, the four kinds of strings, and dotted keys.

Within lines blanks are spaces and tabs only, a line ends with a line feed that a
carriage return may precede, and no other control character may occur.
-/

namespace DependencyAudit.Toml

set_option autoImplicit false

/-- Takes a value from the front of a text. -/
abbrev Reader (α : Type) := List Char → Option (α × List Char)

/-! ## Characters -/

def isWhite (c : Char) : Bool :=
  c = ' ' || c = '\t'

/-- Any character that may stand within a line. -/
def isPrintable (c : Char) : Bool :=
  c = '\t' || (0x20 ≤ c.toNat && c.toNat ≠ 0x7F)

def isBareKeyChar (c : Char) : Bool :=
  c.isAlphanum || c = '_' || c = '-'

def isHexDigit (c : Char) : Bool :=
  c.isDigit || ('a' ≤ c && c ≤ 'f') || ('A' ≤ c && c ≤ 'F')

/-- The value of a digit, decimal or hexadecimal. -/
def digitValue (c : Char) : Nat :=
  if c.isDigit then c.toNat - '0'.toNat
  else if 'a' ≤ c then c.toNat - 'a'.toNat + 10
  else c.toNat - 'A'.toNat + 10

/-- The value of digits to some base. -/
def valueOf (base : Nat) (digits : List Char) : Nat :=
  digits.foldl (fun value c => value * base + digitValue c) 0

/-! ## Blanks -/

def skipWhite (cs : List Char) : List Char :=
  cs.dropWhile isWhite

/-- What follows a line end. -/
def newline? : List Char → Option (List Char)
  | '\n' :: rest => some rest
  | '\r' :: '\n' :: rest => some rest
  | _ => none

/-- Passes over a comment, up to the end of its line. -/
def skipComment : List Char → List Char
  | '#' :: rest => rest.dropWhile isPrintable
  | cs => cs

/-- Passes over what may follow on a line, and over the end of the line. -/
def lineEnd? (cs : List Char) : Option (List Char) :=
  match skipComment (skipWhite cs) with
  | [] => some []
  | rest => newline? rest

/-- Passes over blanks, comments and line ends. -/
def skipGap (cs : List Char) : List Char :=
  go cs.length cs
where
  /-- Each round passes over one line at most. -/
  go : Nat → List Char → List Char
    | 0, cs => cs
    | rounds + 1, cs =>
        let rest := skipWhite cs
        match newline? (skipComment rest) with
        | some next => go rounds next
        | none => rest

/-! ## Strings -/

/-- The character that so many hexadecimal digits give. -/
def hexChar? (count : Nat) (cs : List Char) : Option (Char × List Char) :=
  let digits := cs.take count
  let n := valueOf 16 digits
  if digits.length = count && digits.all isHexDigit && n.isValidChar then
    some (Char.ofNat n, cs.drop count)
  else none

/-- The character that an escape stands for, after its backslash. -/
def escape? : Reader Char
  | 'b' :: rest => some ('\x08', rest)
  | 't' :: rest => some ('\t', rest)
  | 'n' :: rest => some ('\n', rest)
  | 'f' :: rest => some ('\x0C', rest)
  | 'r' :: rest => some ('\r', rest)
  | '"' :: rest => some ('"', rest)
  | '\\' :: rest => some ('\\', rest)
  | 'u' :: rest => hexChar? 4 rest
  | 'U' :: rest => hexChar? 8 rest
  | _ => none

/-- Passes over blanks and line ends. -/
def skipLines : Nat → List Char → List Char
  | 0, cs => cs
  | rounds + 1, cs =>
      let rest := skipWhite cs
      match newline? rest with
      | some next => skipLines rounds next
      | none => rest

/-- Passes over a line end within a string and all blank lines after it, after
the backslash that asks for it. -/
def continuation? (cs : List Char) : Option (List Char) :=
  (newline? (skipWhite cs)).map fun rest => skipLines (rest.length + 1) rest

/-- The rest of a string on one line, up to its closing quote. -/
def restOfString (quote : Char) : Nat → Reader (List Char)
  | 0, _ => none
  | _ + 1, [] => none
  | budget + 1, c :: rest =>
      if c = quote then some ([], rest)
      else if c = '\\' && quote = '"' then do
        let (escaped, after) ← escape? rest
        let (more, after) ← restOfString quote budget after
        return (escaped :: more, after)
      else if isPrintable c then
        (restOfString quote budget rest).map fun (more, after) => (c :: more, after)
      else none

/-- The rest of a string over several lines.  Up to two quotes may stand before
the three that close it. -/
def restOfBlock (quote : Char) : Nat → Reader (List Char)
  | 0, _ => none
  | budget + 1, cs =>
      let quotes := (cs.takeWhile (· = quote)).length
      if 3 ≤ quotes then
        let kept := min (quotes - 3) 2
        some (List.replicate kept quote, cs.drop (kept + 3))
      else
        match newline? cs with
        | some rest =>
            (restOfBlock quote budget rest).map fun (more, after) => ('\n' :: more, after)
        | none =>
            match cs with
            | [] => none
            | c :: rest =>
                if c = '\\' && quote = '"' then
                  match continuation? rest with
                  | some after => restOfBlock quote budget after
                  | none => do
                      let (escaped, after) ← escape? rest
                      let (more, after) ← restOfBlock quote budget after
                      return (escaped :: more, after)
                else if isPrintable c then
                  (restOfBlock quote budget rest).map fun (more, after) => (c :: more, after)
                else none

def isQuote (c : Char) : Bool :=
  c = '"' || c = '\x27'

/-- A string on one line, with its quotes. -/
def lineString? : Reader (List Char)
  | [] => none
  | c :: rest => if isQuote c then restOfString c (rest.length + 1) rest else none

/-- A string of any kind.  The line end right after three opening quotes is not
part of it. -/
def string? (cs : List Char) : Option (List Char × List Char) :=
  match cs with
  | first :: second :: third :: rest =>
      if isQuote first && second = first && third = first then
        restOfBlock first (rest.length + 1) ((newline? rest).getD rest)
      else lineString? cs
  | _ => lineString? cs

/-! ## Keys -/

/-- The least number of levels that is refused. -/
def depthLimit : Nat := 80

/-- A bare or quoted key. -/
def simpleKey? (cs : List Char) : Option (String × List Char) :=
  match lineString? cs with
  | some (text, rest) => some (String.ofList text, rest)
  | none =>
      let bare := cs.takeWhile isBareKeyChar
      if bare.isEmpty then none else some (String.ofList bare, cs.dropWhile isBareKeyChar)

/-- Keys joined by dots, with blanks around each. -/
def keys? : Nat → Reader (List String)
  | 0, _ => none
  | budget + 1, cs => do
      let (key, rest) ← simpleKey? (skipWhite cs)
      match skipWhite rest with
      | '.' :: more =>
          let (others, after) ← keys? budget more
          return (key :: others, after)
      | after => return ([key], after)

/-- A dotted key of fewer parts than the limit. -/
def path? (cs : List Char) : Option (List String × List Char) :=
  keys? (depthLimit - 1) cs

end DependencyAudit.Toml
