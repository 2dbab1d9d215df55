/-
# DependencyAudit.Proofs.Descriptors -- descriptors as erased types

A descriptor is the text of an erased type: the type of a field, or the parameters and the
result of a method.  Classes occur in it by their internal names, between an `L` and a
semicolon, so a name must not hold a semicolon itself (`Closed`); nothing else is asked of
it.

The scanner of descriptors starts and ends outside of names on every such text, and in
between it completes the classes of the type, in order (`classTypes_text`).  Class
constants of arrays are texts of field types as well (`constantTypes_array`).
-/
import DependencyAudit.ClassFile.Basic

namespace DependencyAudit.TypeText

set_option autoImplicit false

/-! ## Erased types -/

/-- A type that is no reference. -/
inductive Primitive where
  | byte
  | char
  | double
  | float
  | int
  | long
  | short
  | boolean
deriving Repr, DecidableEq

def Primitive.letter : Primitive → Char
  | .byte => 'B'
  | .char => 'C'
  | .double => 'D'
  | .float => 'F'
  | .int => 'I'
  | .long => 'J'
  | .short => 'S'
  | .boolean => 'Z'

/-- The erased type of a field. -/
inductive FieldType where
  | primitive (type : Primitive)
  | ofClass (internal : String)
  | array (element : FieldType)
deriving Repr, DecidableEq

namespace FieldType

def text : FieldType → List Char
  | primitive type => [type.letter]
  | ofClass internal => 'L' :: internal.toList ++ [';']
  | array element => '[' :: element.text

/-- The internal names of the classes in a type, of which there is at most one. -/
def internals : FieldType → List String
  | primitive _ => []
  | ofClass internal => [internal]
  | array element => element.internals

end FieldType

/-- The erased type of a field or a method. -/
inductive ErasedType where
  | field (type : FieldType)
  /-- The result is missing if it is `void`. -/
  | method (parameters : List FieldType) (result : Option FieldType)
deriving Repr, DecidableEq

namespace ErasedType

def text : ErasedType → List Char
  | field type => type.text
  | method parameters result =>
      '(' :: parameters.flatMap FieldType.text ++ ')' :: result.elim ['V'] FieldType.text

/-- The internal names of the classes in a type, in order. -/
def internals : ErasedType → List String
  | field type => type.internals
  | method parameters result =>
      parameters.flatMap FieldType.internals ++ result.elim [] FieldType.internals

end ErasedType

/-- No name ends before its end. -/
def Closed (internals : List String) : Prop :=
  ∀ internal ∈ internals, ';' ∉ internal.toList

theorem closed_append {internals more : List String} :
    Closed (internals ++ more) ↔ Closed internals ∧ Closed more := by
  simp only [Closed, List.mem_append, or_imp, forall_and]

namespace Descriptor

/-! ## The scan of a type -/

/-- The scanner passes over a text from outside of names to outside, and completes some
classes. -/
def Spells (cs : List Char) (names : List String) : Prop :=
  scan .outside cs = (.outside, names)

theorem Spells.nil : Spells [] [] := rfl

theorem Spells.append {cs ds : List Char} {names more : List String} (first : Spells cs names)
    (second : Spells ds more) : Spells (cs ++ ds) (names ++ more) := by
  have head : scan .outside cs = (.outside, names) := first
  have tail : scan .outside ds = (.outside, more) := second
  rw [Spells, scan_append, head, tail]

theorem Spells.cons {c : Char} {cs : List Char} {names : List String} (other : c ≠ 'L')
    (spells : Spells cs names) : Spells (c :: cs) names := by
  have tail : scan .outside cs = (.outside, names) := spells
  simp [Spells, scan, step, other, tail]

/-- Inside of a name the scanner collects what it reads up to the semicolon. -/
theorem scan_inside {name : List Char} (closed : ';' ∉ name) :
    ∀ reversed : List Char, scan (.inside reversed) (name ++ [';']) =
      (.outside, [String.ofList (ClassName.dotted (reversed.reverse ++ name))]) := by
  induction name with
  | nil => simp [scan, step]
  | cons c rest collects =>
      intro reversed
      have other : c ≠ ';' := fun same => closed (same ▸ List.mem_cons_self)
      have tail := collects (fun member => closed (List.mem_cons_of_mem c member)) (c :: reversed)
      simp only [List.reverse_cons, List.append_assoc, List.singleton_append] at tail
      simp [scan, step, other, tail]

theorem spells_ofClass {internal : String} (closed : ';' ∉ internal.toList) :
    Spells (FieldType.ofClass internal).text [ClassName.ofInternal internal] := by
  simp [Spells, FieldType.text, scan, step, scan_inside closed, ClassName.ofInternal]

theorem Primitive.letter_ne (type : Primitive) : type.letter ≠ 'L' := by
  cases type <;> decide

theorem spells_field :
    ∀ {type : FieldType}, Closed type.internals →
      Spells type.text (type.internals.map ClassName.ofInternal)
  | .primitive type, _ => .cons (Primitive.letter_ne type) .nil
  | .ofClass internal, closed => spells_ofClass (closed internal List.mem_cons_self)
  | .array _, closed => .cons (by decide) (spells_field closed)

theorem spells_fields {types : List FieldType}
    (closed : Closed (types.flatMap FieldType.internals)) :
    Spells (types.flatMap FieldType.text)
      ((types.flatMap FieldType.internals).map ClassName.ofInternal) := by
  induction types with
  | nil => exact .nil
  | cons first rest spells =>
      obtain ⟨head, tail⟩ := closed_append.mp closed
      rw [List.flatMap_cons, List.flatMap_cons, List.map_append]
      exact (spells_field head).append (spells tail)

/-- The scanner completes the classes of a type while it reads the text of the type. -/
theorem spells_text {type : ErasedType} (closed : Closed type.internals) :
    Spells type.text (type.internals.map ClassName.ofInternal) := by
  cases type with
  | field type => exact spells_field closed
  | method parameters result =>
      obtain ⟨ofParameters, ofResult⟩ := closed_append.mp closed
      have last : Spells (result.elim ['V'] FieldType.text)
          ((result.elim [] FieldType.internals).map ClassName.ofInternal) := by
        cases result with
        | none => exact .cons (by decide) .nil
        | some type => exact spells_field ofResult
      rw [ErasedType.internals, List.map_append]
      exact .cons (by decide) ((spells_fields ofParameters).append (.cons (by decide) last))

/-- The classes found in the descriptor of a type are the classes of the type. -/
theorem classTypes_text {type : ErasedType} (closed : Closed type.internals) :
    classTypes (String.ofList type.text) = type.internals.map ClassName.ofInternal := by
  have scanned : scan .outside type.text = _ := spells_text closed
  rw [classTypes, String.toList_ofList, scanned]

end Descriptor

end TypeText

namespace ClassFile

open TypeText

/-! ## Class constants -/

/-- A class constant that names an array counts for the classes in the type of the array. -/
theorem constantTypes_array {element : FieldType} (closed : Closed element.internals) :
    constantTypes (String.ofList (FieldType.array element).text) =
      element.internals.map ClassName.ofInternal := by
  have scanned :
      Descriptor.classTypes (String.ofList (ErasedType.field (.array element)).text) = _ :=
    Descriptor.classTypes_text closed
  rwa [constantTypes, String.toList_ofList]

/-- A class constant that names no array counts for the class that it names. -/
theorem constantTypes_ofInternal {internal : String} (single : internal.toList.head? ≠ some '[') :
    constantTypes internal = [ClassName.ofInternal internal] := by
  unfold constantTypes
  split
  · rename_i rest shape
    simp [shape] at single
  · rfl

end ClassFile

end DependencyAudit
