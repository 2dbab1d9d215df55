/-
# DependencyAudit.Document.OfToml -- TOML as a document

In TOML only strings are texts, and nothing stands for an absent value.  A point in
time is read as a record of which no field is known.  An array can serve as a
record, whatever its length.
-/
import DependencyAudit.Document.Basic
import DependencyAudit.Toml.Parser

namespace DependencyAudit.Document

set_option autoImplicit false

/-- What a value of TOML says. -/
def ofToml : Toml.Value → Document
  | .text text => .leaf (.ofText text)
  | .flag flag => .leaf (.ofFlag flag)
  | .number => .leaf .useless
  | .instant => .record []
  | .array items => .list .lenient (items.map ofToml)
  | .table fields => .record (named fields)
where
  /-- The fields of a table. -/
  named : List (String × Toml.Value) → List (Document × Document)
    | [] => []
    | (key, value) :: rest => (.leaf (.ofText key), ofToml value) :: named rest

/-- What a TOML text says. -/
def ofTomlText (cs : List Char) : Option Source :=
  (Toml.parse cs).map fun value => alone (ofToml value)

end DependencyAudit.Document
