/-
# DependencyAudit.Document.OfJson -- JSON as a document

In JSON only strings are texts.  `null` stands for nothing where a value is
optional, and for no value anywhere else.  An array can serve as a record if it
is not too long.
-/
import DependencyAudit.Document.Basic
import DependencyAudit.Json.Parser
import DependencyAudit.Text.Utf8

namespace DependencyAudit.Document

set_option autoImplicit false

/-- What a JSON value says. -/
def ofJson : Json → Document
  | .null => .leaf .null
  | .bool value => .leaf (.ofFlag value)
  | .number literal =>
      .leaf (((Json.number literal).natural?).elim .useless .ofNatural)
  | .string text => .leaf (.ofText text)
  | .broken => .leaf .useless
  | .array items => .list .exact (items.map ofJson)
  | .object fields => .record (named fields)
where
  /-- The fields of an object. -/
  named : List (String × Json) → List (Document × Document)
    | [] => []
    | (key, value) :: rest => (.leaf (.ofText key), ofJson value) :: named rest

/-- What a JSON text in octets says. -/
def ofJsonOctets (octets : List UInt8) : Option Source :=
  (Json.parseUnits (Text.Utf8.decodeUnits none octets)).map fun value => alone (ofJson value)

/-- What a JSON text says. -/
def ofJsonText (cs : List Char) : Option Source :=
  (Json.parseChars cs).map fun value => alone (ofJson value)

end DependencyAudit.Document
