/-
# DependencyAudit.Document.OfYaml -- YAML as a document

In YAML every scalar is a text, quoted or not, and whatever its tag.  A flag must not
be quoted, nor may `null` be where it stands for nothing.  A scalar of which nothing
is written serves as an empty list or record, and so does a text without any content.

Aliases stay aliases.  So that few lines cannot stand for very many values, they may
be followed a hundred times for each event of the document.
-/
import DependencyAudit.Document.Basic
import DependencyAudit.Yaml.Parser
import DependencyAudit.Yaml.PlainText

namespace DependencyAudit.Document

open DependencyAudit.Yaml

set_option autoImplicit false

def boolTag : String := "tag:yaml.org,2002:bool"

def nullTag : String := "tag:yaml.org,2002:null"

/-- The flag of a scalar: plain, or literal under the tag of flags. -/
def flagOfScalar? (text : String) (style : ScalarStyle) (tag : Option String) : Option Bool :=
  if style = .plain || (style = .literal && tag = some boolTag) then PlainText.flag? text else none

/-- What a plain scalar says where a value is optional.  Under a tag it stands for
nothing only if the tag says so, and then its text must agree. -/
def optionalOfPlain (text : String) (tag : Option String) : Option (Option String) :=
  match tag with
  | none => some (if text.isEmpty || PlainText.isNull text then none else some text)
  | some name =>
      if name ≠ nullTag then some (some text)
      else if PlainText.isNull text then some none
      else none

/-- What a scalar says. -/
def ofScalar (text : String) (style : ScalarStyle) (tag : Option String) : Leaf where
  text := some text
  flag := flagOfScalar? text style tag
  natural := none
  optionalText := if style = .plain then optionalOfPlain text tag else some (some text)
  isBlank := style = .plain && text.isEmpty

/-- What a node says. -/
def ofNode : Node → Document
  | .scalar text style tag => .leaf (ofScalar text style tag)
  | .sequence items => .list .never (items.map ofNode)
  | .mapping fields => .record (named fields)
  | .aliasOf number => .aliasOf number
where
  /-- The fields of a mapping. -/
  named : List (Node × Node) → List (Document × Document)
    | [] => []
    | (key, value) :: rest => (ofNode key, ofNode value) :: named rest

/-- The document of a text without any content. -/
def blank : Document :=
  .leaf { Leaf.null with isBlank := true }

/-- What a document says, with what its aliases stand for. -/
def ofTree (tree : Tree) : Source where
  root := ofNode tree.root
  anchors := tree.anchors.map fun (number, node) => (number, ofNode node)
  hops := 100 * tree.root.events

/-- What a YAML text says. -/
def ofYamlText (cs : List Char) : Option Source :=
  (Yaml.parse cs).map fun
    | .document tree => ofTree tree
    | .nothing => alone blank

end DependencyAudit.Document
