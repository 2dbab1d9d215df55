/-
# DependencyAudit.Json.Basic -- JSON values

A JSON value keeps the fields of an object in their order, repeated keys included,
and the digits of a number as written, so a number that is written from a natural
reads back (`natural?_ofNat`).  `broken` stands for a value that holds half of a
surrogate pair or a malformed stretch where a text is needed: a string that is no
text, or an object with such a key.
-/

namespace DependencyAudit

set_option autoImplicit false

/-- A JSON value. -/
inductive Json where
  | null
  | bool (value : Bool)
  | number (literal : String)
  | string (text : String)
  | broken
  | array (items : List Json)
  | object (fields : List (String × Json))
deriving Repr, Inhabited

namespace Json

/-- The number of a natural. -/
def ofNat (n : Nat) : Json :=
  .number (String.ofList (Nat.toDigits 10 n))

/-- The array of some texts. -/
def ofTexts (texts : List String) : Json :=
  .array (texts.map .string)

/-- A natural, written as digits only. -/
def natural? : Json → Option Nat
  | .number literal =>
      if literal.toList ≠ [] ∧ literal.toList.all Char.isDigit then
        some (Nat.ofDigitChars 10 literal.toList 0)
      else none
  | _ => none

/-- An integer, written as digits after at most a minus sign. -/
def integer? : Json → Option Int
  | .number literal =>
      match literal.toList with
      | '-' :: digits =>
          if digits ≠ [] ∧ digits.all Char.isDigit then
            some (-(Nat.ofDigitChars 10 digits 0 : Int))
          else none
      | digits =>
          if digits ≠ [] ∧ digits.all Char.isDigit then some (Nat.ofDigitChars 10 digits 0)
          else none
  | _ => none

def text? : Json → Option String
  | .string text => some text
  | _ => none

def bool? : Json → Option Bool
  | .bool value => some value
  | _ => none

def items? : Json → Option (List Json)
  | .array items => some items
  | _ => none

/-- The first value under a key. -/
def lookup? (key : String) : Json → Option Json
  | .object fields => fields.lookup key
  | _ => none

/-! ## Facts -/

/-- A number written from a natural reads back. -/
theorem natural?_ofNat (n : Nat) : (ofNat n).natural? = some n := by
  have digits : (Nat.toDigits 10 n).all Char.isDigit = true := by
    rw [List.all_eq_true]
    intro c member
    exact Nat.isDigit_of_mem_toDigits (by decide) (by decide) member
  simp [natural?, ofNat, Nat.toDigits_ne_nil, digits,
    Nat.ofDigitChars_toDigits (by decide : 1 < 10) (by decide)]

theorem lookup?_eq_none_iff {key : String} {fields : List (String × Json)} :
    (Json.object fields).lookup? key = none ↔ ∀ field ∈ fields, (key != field.1) = true :=
  List.lookup_eq_none_iff

end Json

end DependencyAudit
