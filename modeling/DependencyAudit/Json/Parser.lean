/-
# DependencyAudit.Json.Parser -- tokens to a JSON value

A value is a word, a number, a string, or a bracketed list of values or of
keyed values.  Each level of brackets and each item spends one unit of a
budget; `parseUnits` gives twice the number of tokens, which no value exceeds.  It
reads a text that may have malformed stretches, such as the content of a file.
-/
import DependencyAudit.Json.Basic
import DependencyAudit.Json.Token

namespace DependencyAudit.Json

set_option autoImplicit false

/-- The key that a token is; a broken string is one without a text. -/
def keyOf? : Token → Option (Option String)
  | .string key => some (some key)
  | .broken => some none
  | _ => none

/-- The object of some fields, which is broken if one of its keys is. -/
def ofFields (fields : List (Option String × Json)) : Json :=
  match fields.mapM fun (key, value) => key.map fun key => (key, value) with
  | some fields => .object fields
  | none => .broken

mutual

/-- Reads a value and leaves the tokens after it. -/
def readValue : Nat → List Token → Option (Json × List Token)
  | 0, _ => none
  | _ + 1, [] => none
  | budget + 1, token :: rest =>
      match token with
      | .null => some (.null, rest)
      | .bool value => some (.bool value, rest)
      | .number literal => some (.number literal, rest)
      | .string text => some (.string text, rest)
      | .broken => some (.broken, rest)
      | .openBracket =>
          match rest with
          | .closeBracket :: after => some (.array [], after)
          | _ => (readItems budget rest).map fun (items, after) => (.array items, after)
      | .openBrace =>
          match rest with
          | .closeBrace :: after => some (.object [], after)
          | _ => (readFields budget rest).map fun (fields, after) => (ofFields fields, after)
      | _ => none

/-- Reads the items of an array and its closing bracket. -/
def readItems : Nat → List Token → Option (List Json × List Token)
  | 0, _ => none
  | budget + 1, tokens => do
      let (first, rest) ← readValue budget tokens
      match rest with
      | .comma :: more =>
          let (items, after) ← readItems budget more
          return (first :: items, after)
      | .closeBracket :: after => return ([first], after)
      | _ => none

/-- Reads the fields of an object and its closing brace. -/
def readFields : Nat → List Token → Option (List (Option String × Json) × List Token)
  | budget + 1, key :: .colon :: tokens => do
      let key ← keyOf? key
      let (first, rest) ← readValue budget tokens
      match rest with
      | .comma :: more =>
          let (fields, after) ← readFields budget more
          return ((key, first) :: fields, after)
      | .closeBrace :: after => return ([(key, first)], after)
      | _ => none
  | _, _ => none

end

/-- The value of a JSON text, `none` standing for each malformed stretch. -/
def parseUnits (units : List (Option Char)) : Option Json := do
  let tokens ← Token.scan units
  let (value, rest) ← readValue (2 * tokens.length + 1) tokens
  if rest.isEmpty then return value else none

/-- The value of a JSON text. -/
def parseChars (cs : List Char) : Option Json :=
  parseUnits (cs.map some)

/-- The value of a JSON text. -/
def parse (text : String) : Option Json :=
  parseChars text.toList

end DependencyAudit.Json
