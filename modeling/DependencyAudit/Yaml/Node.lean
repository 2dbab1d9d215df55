/-
# DependencyAudit.Yaml.Node -- the tree of a YAML document

A document is a tree of scalars, sequences, mappings and aliases.  An alias holds
the number of the anchor that it names; what bears that number is known only when
the document has been read to its end, so a `Tree` keeps the anchored nodes beside
the root.

`events` is the length of a document when it is told as a series of events: one for
each scalar and each alias, two for each sequence and each mapping, so never none
(`events_pos`).
-/
import DependencyAudit.Yaml.Token

namespace DependencyAudit.Yaml

set_option autoImplicit false

/-- A node of a document. -/
inductive Node where
  /-- A scalar; the tag is the one it was given, if any. -/
  | scalar (text : String) (style : ScalarStyle) (tag : Option String)
  | sequence (items : List Node)
  | mapping (fields : List (Node × Node))
  /-- The node that bears a number. -/
  | aliasOf (number : Nat)
deriving Repr, Inhabited

namespace Node

/-- The scalar of nothing at all. -/
def empty : Node := .scalar "" .plain none

/-- The number of events that tell a node. -/
def events : Node → Nat
  | .scalar _ _ _ => 1
  | .aliasOf _ => 1
  | .sequence items => 2 + eventsOfItems items
  | .mapping fields => 2 + eventsOfFields fields
where
  /-- The events of the items of a sequence. -/
  eventsOfItems : List Node → Nat
    | [] => 0
    | item :: rest => item.events + eventsOfItems rest
  /-- The events of the fields of a mapping. -/
  eventsOfFields : List (Node × Node) → Nat
    | [] => 0
    | (key, value) :: rest => key.events + value.events + eventsOfFields rest

/-- There is no node that nothing tells. -/
theorem events_pos (node : Node) : 0 < node.events := by
  cases node <;> unfold events <;> omega

end Node

/-- A document: its root, and the nodes that aliases stand for. -/
structure Tree where
  root : Node
  anchors : List (Nat × Node)
deriving Inhabited

end DependencyAudit.Yaml
