/-
# DependencyAudit.Json.Printer -- JSON values as text

`compact` writes a value without blanks.  `pretty` puts each item on a line of
its own, indented by two spaces for each level, a space after each colon, and
keeps empty lists and objects together.

In a string the quote, the backslash and the control characters are escaped,
the common ones by letter and the others by code unit; all else stands for
itself.
-/
import DependencyAudit.Json.Basic

namespace DependencyAudit.Json

set_option autoImplicit false

/-! ## Strings -/

/-- The lower-case hexadecimal digit of a number below 16. -/
def hexDigit (n : Nat) : Char :=
  if n < 10 then Char.ofNat ('0'.toNat + n) else Char.ofNat ('a'.toNat + (n - 10))

/-- A character as it stands in a string. -/
def escapeChar (c : Char) : List Char :=
  if c = '"' then ['\\', '"']
  else if c = '\\' then ['\\', '\\']
  else if c.toNat = 8 then ['\\', 'b']
  else if c.toNat = 12 then ['\\', 'f']
  else if c = '\n' then ['\\', 'n']
  else if c = '\r' then ['\\', 'r']
  else if c = '\t' then ['\\', 't']
  else if c.toNat < 0x20 then
    ['\\', 'u', '0', '0', hexDigit (c.toNat / 16), hexDigit (c.toNat % 16)]
  else [c]

/-- A text in quotes. -/
def quoted (text : String) : String :=
  String.ofList ('"' :: text.toList.flatMap escapeChar ++ ['"'])

/-! ## Values -/

/-- A value without blanks. -/
def compact : Json → String
  | .null => "null"
  | .bool value => if value then "true" else "false"
  | .number literal => literal
  | .string text => quoted text
  | .broken => quoted ""
  | .array items => "[" ++ ",".intercalate (items.map compact) ++ "]"
  | .object fields => "\x7b" ++ ",".intercalate (compactFields fields) ++ "\x7d"
where
  /-- The fields of an object without blanks. -/
  compactFields : List (String × Json) → List String
    | [] => []
    | (key, value) :: rest => (quoted key ++ ":" ++ compact value) :: compactFields rest

/-- The start of a line at some depth. -/
def indent (depth : Nat) : String :=
  String.ofList (List.replicate (2 * depth) ' ')

/-- Items on lines of their own, between brackets. -/
def bracketed (opening closing : String) (depth : Nat) : List String → String
  | [] => opening ++ closing
  | items =>
      opening ++ "\n" ++
        ",\n".intercalate (items.map fun item => indent (depth + 1) ++ item) ++
        "\n" ++ indent depth ++ closing

/-- A value with an item to a line, at some depth. -/
def prettyAt (depth : Nat) : Json → String
  | .array items => bracketed "[" "]" depth (items.map (prettyAt (depth + 1)))
  | .object fields => bracketed "\x7b" "\x7d" depth (prettyFields (depth + 1) fields)
  | .null => "null"
  | .bool value => if value then "true" else "false"
  | .number literal => literal
  | .string text => quoted text
  | .broken => quoted ""
where
  /-- The fields of an object, each with its value. -/
  prettyFields (depth : Nat) : List (String × Json) → List String
    | [] => []
    | (key, value) :: rest =>
        (quoted key ++ ": " ++ prettyAt depth value) :: prettyFields depth rest

/-- A value with an item to a line. -/
def pretty (value : Json) : String :=
  prettyAt 0 value

end DependencyAudit.Json
