/-
# DependencyAudit.Document.Basic -- structured text, whatever its format

Manifests, settings and reports come in several formats.  A `Document` is what
such a text says as far as reading values from it goes: leaves, lists and
records.  Formats differ in what a leaf can serve as, and a leaf says so itself:
in one format every scalar has a text, in another only strings do.

A part of a document may be said elsewhere, under a number: an alias.  What the
numbers stand for belongs to the whole text, which is a `Source`, and so does the
number of times that an alias may be followed.  A `Decoder` reads a value under both;
it follows an alias, and nothing else (`follow_eq_self`), only where it has to look
at what is there, so an alias that nothing asks for may stand for anything, itself
included.

The decoders `text`, `flag`, `natural`, `optionalText`, `listOf` and `fields` take
values from a document; all of them refuse what cannot serve as such a value.
`fields` finds the fields of a record by name, one for each name asked for
(`length_fields`): unknown names are passed over, and a name given twice is refused.
-/

namespace DependencyAudit

set_option autoImplicit false

/-- What a single value can serve as. -/
structure Leaf where
  text : Option String
  flag : Option Bool
  natural : Option Nat
  /-- What it serves as where a value is optional: a text, or nothing. -/
  optionalText : Option (Option String)
  /-- Nothing at all was written, which serves as an empty list or record. -/
  isBlank : Bool
deriving Repr, DecidableEq, Inhabited

namespace Leaf

/-- A value that serves as nothing. -/
def useless : Leaf := ⟨none, none, none, none, false⟩

def ofText (text : String) : Leaf :=
  { useless with text := some text, optionalText := some (some text) }

def ofFlag (flag : Bool) : Leaf := { useless with flag := some flag }

def ofNatural (natural : Nat) : Leaf := { useless with natural := some natural }

/-- A value that stands for the lack of one. -/
def null : Leaf := { useless with optionalText := some none }

end Leaf

/-- Whether a list can serve as a record, its items in the order of the fields. -/
inductive Positional where
  | never
  /-- If it has no more items than there are fields. -/
  | exact
  /-- Items beyond the fields do not count. -/
  | lenient
deriving Repr, DecidableEq

/-- What a structured text says. -/
inductive Document where
  | leaf (value : Leaf)
  | list (positional : Positional) (items : List Document)
  /-- A record, its names documents too. -/
  | record (fields : List (Document × Document))
  /-- What is said under a number. -/
  | aliasOf (number : Nat)
deriving Inhabited

/-! ## Decoders -/

/-- A reading of a value, given what the numbers stand for and how many aliases may
still be followed. -/
abbrev Decoder (α : Type) :=
  ReaderT (List (Nat × Document)) (StateT Nat Option) α

namespace Decoder

def ofOption {α : Type} (value : Option α) : Decoder α := fun _ hops =>
  value.map fun value => (value, hops)

def refuse {α : Type} : Decoder α := ofOption none

theorem pure_apply {α : Type} (value : α) (anchors : List (Nat × Document)) (hops : Nat) :
    (pure value : Decoder α) anchors hops = some (value, hops) := rfl

theorem bind_apply {α β : Type} (first : Decoder α) (next : α → Decoder β)
    (anchors : List (Nat × Document)) (hops : Nat) :
    (first >>= next) anchors hops =
      (first anchors hops).bind fun (found, left) => next found anchors left := rfl

/-- One step of a decoder after another. -/
theorem bind_eq_some {α β : Type} {first : Decoder α} {next : α → Decoder β}
    {anchors : List (Nat × Document)} {hops left : Nat} {value : β}
    (read : (first >>= next) anchors hops = some (value, left)) :
    ∃ found between, first anchors hops = some (found, between) ∧
      next found anchors between = some (value, left) := by
  obtain ⟨⟨found, between⟩, one, two⟩ := Option.bind_eq_some_iff.mp read
  exact ⟨found, between, one, two⟩

end Decoder

namespace Document

/-- What a document says, an alias followed. -/
def follow : Document → Decoder Document
  | .aliasOf number => fun anchors hops =>
      match hops with
      | 0 => none
      | left + 1 => (anchors.lookup number).map fun found => (found, left)
  | document => return document

/-- A document with what the numbers in it stand for, and how many aliases may be
followed in all. -/
structure Source where
  root : Document
  anchors : List (Nat × Document)
  hops : Nat

/-- A document without aliases. -/
def alone (root : Document) : Source := ⟨root, [], 0⟩

/-- Takes a value from a whole text. -/
def Source.decode {α : Type} (source : Source) (read : Document → Decoder α) : Option α :=
  (read source.root source.anchors source.hops).map Prod.fst

/-! ## Values -/

/-- The single value that a document is. -/
def single (document : Document) : Decoder Leaf := do
  match ← document.follow with
  | .leaf value => return value
  | _ => Decoder.refuse

def text (document : Document) : Decoder String := do
  Decoder.ofOption (← document.single).text

def flag (document : Document) : Decoder Bool := do
  Decoder.ofOption (← document.single).flag

/-- A natural below a bound. -/
def natural (bound : Nat) (document : Document) : Decoder Nat := do
  Decoder.ofOption ((← document.single).natural.filter (· < bound))

/-- A text, or nothing. -/
def optionalText (document : Document) : Decoder (Option String) := do
  Decoder.ofOption (← document.single).optionalText

/-- A list of values. -/
def listOf {α : Type} (item : Document → Decoder α) (document : Document) : Decoder (List α) := do
  match ← document.follow with
  | .list _ items => items.mapM item
  | .leaf value => if value.isBlank then return [] else Decoder.refuse
  | _ => Decoder.refuse

def texts : Document → Decoder (List String) :=
  listOf text

/-! ## Records -/

/-- The index of the field that a name belongs to. -/
def fieldIndex? (known : List (List String)) (name : String) : Option Nat :=
  known.findIdx? (·.contains name)

/-- Puts the given fields at their indices, refusing a second one for any. -/
def place (known : List (List String)) :
    List (Document × Document) → List (Option Document) → Decoder (List (Option Document))
  | [], slots => return slots
  | (key, value) :: rest, slots => do
      match fieldIndex? known (← key.text) with
      | none => place known rest slots
      | some index =>
          match slots[index]? with
          | some none => place known rest (slots.set index (some value))
          | _ => Decoder.refuse

/-- What a document that is no alias gives for each of the known fields. -/
def serve (known : List (List String)) : Document → Decoder (List (Option Document))
  | .record given => place known given (List.replicate known.length none)
  | .list .exact items =>
      if items.length ≤ known.length then
        return items.map some ++ List.replicate (known.length - items.length) none
      else Decoder.refuse
  | .list .lenient items =>
      let served := items.take known.length
      return served.map some ++ List.replicate (known.length - served.length) none
  | .leaf value =>
      if value.isBlank then return List.replicate known.length none else Decoder.refuse
  | _ => Decoder.refuse

/-- What a document gives for each of the known fields, each under one or more
names. -/
def fields (known : List (List String)) (document : Document) :
    Decoder (List (Option Document)) := do
  serve known (← document.follow)

/-- The value of a field, or what holds if it is absent. -/
def fieldOr {α : Type} (absent : α) (read : Document → Decoder α) : Option Document → Decoder α
  | none => return absent
  | some document => read document

/-- The value of a field that must be there. -/
def fieldOf {α : Type} (read : Document → Decoder α) : Option Document → Decoder α
  | none => Decoder.refuse
  | some document => read document

/-- All names of a record with their values. -/
def entries {α : Type} (read : String → Document → Decoder α) (document : Document) :
    Decoder (List α) := do
  match ← document.follow with
  | .record given => given.mapM fun (key, value) => do read (← key.text) value
  | _ => Decoder.refuse

/-! ## Facts -/

/-- Only an alias is followed. -/
theorem follow_eq_self {document : Document} (direct : ∀ number, document ≠ .aliasOf number) :
    document.follow = pure document := by
  cases document with
  | aliasOf number => exact absurd rfl (direct number)
  | leaf value => rfl
  | list positional items => rfl
  | record given => rfl

theorem length_place {known : List (List String)} {anchors : List (Nat × Document)}
    {given : List (Document × Document)} :
    ∀ {slots placed : List (Option Document)} {hops left : Nat},
      place known given slots anchors hops = some (placed, left) →
        placed.length = slots.length := by
  induction given with
  | nil =>
      intro slots placed hops left read
      have same : some (slots, hops) = some (placed, left) := read
      cases same
      rfl
  | cons field rest ih =>
      intro slots placed hops left read
      obtain ⟨name, between, _, later⟩ := Decoder.bind_eq_some read
      cases index? : fieldIndex? known name with
      | none =>
          simp only [index?] at later
          exact ih later
      | some index =>
          simp only [index?] at later
          match slot? : slots[index]? with
          | some none =>
              simp only [slot?] at later
              rw [ih later, List.length_set]
          | some (some _) | none =>
              simp only [slot?] at later
              cases later

theorem length_serve {known : List (List String)} {document : Document}
    {anchors : List (Nat × Document)} {hops left : Nat} {given : List (Option Document)}
    (read : serve known document anchors hops = some (given, left)) :
    given.length = known.length := by
  cases document with
  | record named => rw [length_place read, List.length_replicate]
  | aliasOf number => cases read
  | leaf value =>
      simp only [serve] at read
      by_cases blank : value.isBlank
      · rw [if_pos blank] at read
        cases read
        exact List.length_replicate
      · rw [if_neg blank] at read
        cases read
  | list positional items =>
      cases positional with
      | never => cases read
      | exact =>
          simp only [serve] at read
          by_cases short : items.length ≤ known.length
          · rw [if_pos short] at read
            cases read
            simp only [List.length_append, List.length_map, List.length_replicate]
            omega
          · rw [if_neg short] at read
            cases read
      | lenient =>
          cases read
          simp only [List.length_append, List.length_map, List.length_replicate,
            List.length_take]
          omega

/-- There is an answer for each known field. -/
theorem length_fields {known : List (List String)} {document : Document}
    {anchors : List (Nat × Document)} {hops left : Nat} {given : List (Option Document)}
    (read : document.fields known anchors hops = some (given, left)) :
    given.length = known.length := by
  obtain ⟨found, between, _, later⟩ := Decoder.bind_eq_some read
  exact length_serve later

end Document

end DependencyAudit
