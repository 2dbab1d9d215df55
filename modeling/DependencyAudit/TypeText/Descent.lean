/-
# DependencyAudit.TypeText.Descent -- scanners that call one another

Descriptors and signatures can also be scanned by functions that call one another, one for each
kind of type.  They share a position in the octets of the text and the set of names found so far
(`Memory`).  They look one octet ahead, never back, and cut names out of the text between two
positions, which breaks if a position is inside of a character (`slice`).

Nothing says that loops and calls come to an end.  A scan spends one unit of a budget for each
call and each turn of a loop on the way to where it is, and has no outcome if the budget runs out;
a scan that ends is one that has an outcome with any budget from some size on.

What happens on the way is kept in a trail: each position, each cut, each call that returned and
each turn of a loop, with the positions before and after it (`Event`).  No scanner looks at the
trail.

A signature with a fault has no further names, but those that were found stay found
(`addSignature`).
-/
import DependencyAudit.ClassName
import DependencyAudit.NameSet
import DependencyAudit.Text.Utf8

namespace DependencyAudit.TypeText.Descent

open DependencyAudit.Text

set_option autoImplicit false

/-! ## Scanners -/

/-- What can be observed of a scan. -/
inductive Event where
  | reached (position : Nat)
  | sliced (start stop : Nat)
  /-- A call returned without an error. -/
  | returned (start stop : Nat)
  /-- A turn of a loop is over. -/
  | turned (start stop : Nat)
deriving Repr, DecidableEq

structure Memory where
  position : Nat
  names : NameSet
  /-- What has happened, the latest first. -/
  trail : List Event
deriving Repr, DecidableEq

/-- Why a scan ends early. -/
inductive Fault where
  /-- The text is no signature. -/
  | malformed
  /-- A slice is not between characters of the text. -/
  | broken
deriving Repr, DecidableEq

/-- A scan goes on from what it remembers, if it ends at all. -/
abbrev Scanner := ExceptT Fault (StateT Memory Option)

def position : Scanner Nat := fun memory =>
  some (.ok memory.position, memory)

def observe (event : Event) : Scanner Unit := fun memory =>
  some (.ok (), { memory with trail := event :: memory.trail })

def moveTo (target : Nat) : Scanner Unit := fun memory =>
  some (.ok (), { memory with position := target, trail := .reached target :: memory.trail })

def insert (name : String) : Scanner Unit := fun memory =>
  some (.ok (), { memory with names := memory.names.insert name })

def refuse : Scanner Unit := fun memory =>
  some (.error .malformed, memory)

/-- The budget has run out. -/
def spent {α : Type} : Scanner α := fun _ => none

def advance : Scanner Unit := do
  moveTo ((← position) + 1)

/-- A call of a function, observed. -/
def calling (body : Scanner Unit) : Scanner Unit := do
  let start ← position
  body
  observe (.returned start (← position))

/-- A turn of a loop, observed. -/
def turning {α : Type} (body : Scanner α) : Scanner α := do
  let start ← position
  let value ← body
  observe (.turned start (← position))
  return value

/-! ## The text -/

/-- The octet of a character that has only one. -/
def octet (c : Char) : UInt8 :=
  UInt8.ofNat c.toNat

/-- The octet at the position. -/
def peek (text : String) : Scanner (Option UInt8) := do
  return (Utf8.encodeString text)[← position]?

def expect (text : String) (c : Char) : Scanner Unit := do
  if (← peek text) = some (octet c) then advance else refuse

/-- Goes on up to an octet that does not pass. -/
def skip (text : String) (passes : UInt8 → Bool) : Nat → Scanner Unit
  | 0 => spent
  | budget + 1 => do
      if (← peek text).any passes then do
        turning advance
        skip text passes budget
      else return ()

/-- The characters in front of an octet and those behind it, if it begins one. -/
def cut? : List Char → Nat → Option (List Char × List Char)
  | cs, 0 => some ([], cs)
  | [], _ + 1 => none
  | c :: rest, index + 1 =>
      if c.utf8Size ≤ index + 1 then
        (cut? rest (index + 1 - c.utf8Size)).map fun (front, back) => (c :: front, back)
      else none

/-- The text between two octets, if both begin a character. -/
def slice? (text : String) (start stop : Nat) : Option String :=
  if stop < start then none
  else (cut? text.toList start).bind fun (_, rest) =>
    (cut? rest (stop - start)).map fun (inside, _) => String.ofList inside

def slice (text : String) (start stop : Nat) : Scanner String := do
  observe (.sliced start stop)
  match slice? text start stop with
  | some inside => return inside
  | none => throw .broken

/-- The octets from an octet on. -/
def octetsFrom (text : String) (start : Nat) : Scanner (List UInt8) := do
  let octets := Utf8.encodeString text
  observe (.sliced start octets.length)
  if start ≤ octets.length then return octets.drop start else throw .broken

/-! ## Signatures -/

def identifier (text : String) (budget : Nat) : Scanner String := do
  let start ← position
  skip text (fun next => next ≠ octet '<' ∧ next ≠ octet ';' ∧ next ≠ octet '.') budget
  slice text start (← position)

/-- Octets that stand for a type. -/
def baseOctets : List UInt8 :=
  ['B', 'C', 'D', 'F', 'I', 'J', 'S', 'Z', 'V'].map octet

mutual

def javaType (text : String) : Nat → Scanner Unit
  | 0 => spent
  | budget + 1 => calling do
      if (← peek text).any (· ∈ baseOctets) then advance else referenceType text budget

def referenceType (text : String) : Nat → Scanner Unit
  | 0 => spent
  | budget + 1 => calling do
      let next ← peek text
      if next = some (octet 'L') then classType text budget
      else if next = some (octet 'T') then do
        skip text (fun next => next ≠ octet ';') budget
        expect text ';'
      else if next = some (octet '[') then do
        advance
        javaType text budget
      else refuse

def classType (text : String) : Nat → Scanner Unit
  | 0 => spent
  | budget + 1 => calling do
      expect text 'L'
      let outermost ← identifier text budget
      let name ← classTail text budget outermost
      insert (ClassName.ofInternal name)

/-- The arguments of a class type and the names inside of it, up to the semicolon. -/
def classTail (text : String) : Nat → String → Scanner String
  | 0, _ => spent
  | budget + 1, name => do
      let next ← peek text
      if next = some (octet '<') then do
        turning (typeArguments text budget)
        classTail text budget name
      else if next = some (octet '.') then do
        let inner ← turning do
          advance
          identifier text budget
        classTail text budget (name ++ "$" ++ inner)
      else do
        turning (expect text ';')
        return name

def typeArguments (text : String) : Nat → Scanner Unit
  | 0 => spent
  | budget + 1 => calling do
      expect text '<'
      arguments text budget
      expect text '>'

/-- Type arguments, up to the closing bracket. -/
def arguments (text : String) : Nat → Scanner Unit
  | 0 => spent
  | budget + 1 => do
      let next ← peek text
      if next = some (octet '>') then return ()
      else do
        turning do
          if next = some (octet '*') then advance
          else if next = some (octet '+') ∨ next = some (octet '-') then do
            advance
            referenceType text budget
          else if next.isSome then referenceType text budget
          else refuse
        arguments text budget

end

/-- The bounds of a type parameter, each after its colon. -/
def bounds (text : String) : Nat → Scanner Unit
  | 0 => spent
  | budget + 1 => do
      if (← peek text) = some (octet ':') then do
        turning do
          advance
          let next ← peek text
          if next = some (octet 'L') ∨ next = some (octet 'T') ∨ next = some (octet '[') then
            referenceType text budget
          else return ()
        bounds text budget
      else return ()

/-- Type parameters, up to the closing bracket. -/
def parameters (text : String) : Nat → Scanner Unit
  | 0 => spent
  | budget + 1 => do
      if (← peek text) = some (octet '>') then return ()
      else do
        turning do
          skip text (fun next => next ≠ octet ':') budget
          if (← peek text).isNone then refuse else bounds text budget
        parameters text budget

def typeParameters (text : String) (budget : Nat) : Scanner Unit := calling do
  expect text '<'
  parameters text budget
  expect text '>'

/-- The types after the type parameters, and the marks between them. -/
def types (text : String) : Nat → Scanner Unit
  | 0 => spent
  | budget + 1 => do
      let next ← peek text
      if next.isNone then return ()
      else do
        turning do
          if next = some (octet '(') ∨ next = some (octet ')') ∨ next = some (octet '^') then
            advance
          else javaType text budget
        types text budget

def signature (text : String) (budget : Nat) : Scanner Unit := do
  if (← peek text) = some (octet '<') then do
    typeParameters text budget
    types text budget
  else types text budget

/-! ## Descriptors -/

def descriptor (text : String) : Nat → Scanner Unit
  | 0 => spent
  | budget + 1 => do
      let next ← peek text
      if next.isNone then return ()
      else if next = some (octet 'L') then do
        let start ← position
        match (← octetsFrom text (start + 1)).findIdx? (· = octet ';') with
        | none => return ()
        | some length => do
            turning do
              let name ← slice text (start + 1) (start + 1 + length)
              insert (ClassName.ofInternal name)
              moveTo (start + 1 + length + 1)
            descriptor text budget
      else do
        turning advance
        descriptor text budget

/-! ## Whole texts -/

/-- The outcome of a scan from the start of a text, and what is remembered after it. -/
def run (scanner : Nat → Scanner Unit) (budget : Nat) (names : NameSet) :
    Option (Except Fault Unit × Memory) :=
  scanner budget ⟨0, names, []⟩

/-- Adds what a signature names to some names, its faults aside. -/
def addSignature (text : Option String) (budget : Nat) (names : NameSet) : Option NameSet :=
  match text with
  | none => some names
  | some text => (run (signature text) budget names).map fun (_, memory) => memory.names

end DependencyAudit.TypeText.Descent
