/-
# DependencyAudit.Proofs.ClassTypes -- the classes that a signature names

A class type stands in a generic type if some reference of it is that class type, or leads to
it through the elements of arrays and the arguments of other class types, those of the
enclosing classes included (`Reference.Holds`).  It is named by its package, with dots, and by
the names of its classes, with a `$` between each and the one inside of it
(`ClassType.className`).

Scanning the text of any generic type succeeds (`isWellFormed_text`), and adds the names of
these class types to a set and nothing else: not the names of variables or parameters,
whatever letters they begin with, and not those of an enclosing class alone
(`collects_class_types`).
-/
import DependencyAudit.Proofs.Signatures

namespace DependencyAudit.TypeText

set_option autoImplicit false

/-! ## Where class types stand -/

/-- The arguments of a class type, after those of the ones that it is inside of. -/
def ClassType.allArguments : ClassType → List TypeArgument
  | .outermost _ _ arguments => arguments
  | .inner enclosing _ arguments => enclosing.allArguments ++ arguments

/-- A class type stands in a reference. -/
inductive Reference.Holds : Reference → ClassType → Prop where
  | itself (type : ClassType) : Holds (.ofClass type) type
  | element {element : Reference} {type : ClassType} (held : Holds element type) :
      Holds (.array element) type
  | argument {whole type : ClassType} {wildcard : Wildcard} {bound : Reference}
      (given : .bounded wildcard bound ∈ whole.allArguments) (held : Holds bound type) :
      Holds (.ofClass whole) type

def TypeParameter.bounds (parameter : TypeParameter) : List Reference :=
  parameter.classBound.toList ++ parameter.interfaceBounds

def JavaType.reference? : JavaType → Option Reference
  | primitive _ => none
  | reference type => some type

namespace GenericType

/-- The references after the type parameters. -/
def bodyReferences : GenericType → List Reference
  | ofClass _ superclass interfaces => (superclass :: interfaces).map .ofClass
  | ofMethod _ arguments result throws =>
      (arguments ++ result.toList).filterMap JavaType.reference? ++ throws.map Thrown.reference
  | ofField type => [type]

/-- The references that are not inside of others, in order. -/
def references (type : GenericType) : List Reference :=
  type.parameters.flatMap TypeParameter.bounds ++ type.bodyReferences

/-- A class type stands anywhere in a generic type. -/
def Holds (type : GenericType) (part : ClassType) : Prop :=
  ∃ reference ∈ type.references, reference.Holds part

end GenericType

/-! ## Their names -/

/-- The name of the class of a class type. -/
def ClassType.className : ClassType → List Char
  | .outermost package name _ => package.flatMap (fun part => part.chars ++ ['.']) ++ name.chars
  | .inner enclosing name _ => enclosing.className ++ '$' :: name.chars

theorem dotted_identifier (name : Identifier) : ClassName.dotted name.chars = name.chars :=
  ClassName.dotted_eq_self fun slash => (Signature.Identifier.ne slash).2.2.1 rfl

/-- Among the characters of a package only the separators are slashes. -/
theorem dotted_package (package : List Identifier) :
    ClassName.dotted (package.flatMap fun part => part.chars ++ ['/']) =
      package.flatMap fun part => part.chars ++ ['.'] := by
  induction package with
  | nil => rfl
  | cons part rest dotted =>
      have head := dotted_identifier part
      simp only [ClassName.dotted, List.flatMap_cons, List.map_append] at head dotted ⊢
      rw [head, dotted]
      rfl

theorem dotted_internal (type : ClassType) :
    ClassName.dotted type.internal = type.className := by
  cases type with
  | outermost package name _ =>
      have last := dotted_identifier name
      have front := dotted_package package
      simp only [ClassName.dotted, ClassType.internal, ClassType.className, List.map_append]
        at last front ⊢
      rw [front, last]
  | inner enclosing name _ =>
      have last := dotted_identifier name
      have front := dotted_internal enclosing
      simp only [ClassName.dotted, ClassType.internal, ClassType.className, List.map_append,
        List.map_cons] at last front ⊢
      rw [front, last]
      rfl

theorem ofInternal_internal (type : ClassType) :
    ClassName.ofInternal (String.ofList type.internal) = String.ofList type.className := by
  rw [ClassName.ofInternal, String.toList_ofList, dotted_internal]

/-! ## Class types as they are gathered -/

section Gathering

variable {internal : String}

theorem mem_internalsOf {arguments : List TypeArgument} :
    internal ∈ TypeArgument.internalsOf arguments ↔
      ∃ wildcard bound, .bounded wildcard bound ∈ arguments ∧
        internal ∈ Reference.internals bound := by
  induction arguments with
  | nil => simp [TypeArgument.internalsOf]
  | cons first rest gathered =>
      rw [TypeArgument.internalsOf, List.mem_append, gathered]
      cases first with
      | any => simp [TypeArgument.internals]
      | bounded wildcard bound =>
          simp only [TypeArgument.internals, List.mem_cons, TypeArgument.bounded.injEq]
          constructor
          · rintro (here | ⟨other, inner, given, there⟩)
            · exact ⟨wildcard, bound, .inl ⟨rfl, rfl⟩, here⟩
            · exact ⟨other, inner, .inr given, there⟩
          · rintro ⟨other, inner, ⟨rfl, rfl⟩ | given, there⟩
            · exact .inl there
            · exact .inr ⟨other, inner, given, there⟩

/-- Inside of a class type are the references in all its arguments. -/
theorem mem_inside (type : ClassType) :
    internal ∈ type.inside ↔
      ∃ wildcard bound, .bounded wildcard bound ∈ type.allArguments ∧
        internal ∈ Reference.internals bound := by
  cases type with
  | outermost _ _ arguments => exact mem_internalsOf
  | inner enclosing _ arguments =>
      rw [ClassType.inside, List.mem_append, mem_inside enclosing, mem_internalsOf,
        ClassType.allArguments]
      simp only [List.mem_append, or_and_right, exists_or]

mutual

/-- What is gathered inside of a class type stands in one of its arguments. -/
theorem exists_holds_of_inside : ∀ type : ClassType, internal ∈ type.inside →
    ∃ wildcard bound, .bounded wildcard bound ∈ type.allArguments ∧
      ∃ part, Reference.Holds bound part ∧ String.ofList part.internal = internal
  | .outermost _ _ arguments => exists_holds_of_arguments arguments
  | .inner enclosing _ arguments => by
      rw [ClassType.inside, List.mem_append, ClassType.allArguments]
      rintro (outside | here)
      · obtain ⟨wildcard, bound, given, held⟩ := exists_holds_of_inside enclosing outside
        exact ⟨wildcard, bound, List.mem_append_left _ given, held⟩
      · obtain ⟨wildcard, bound, given, held⟩ := exists_holds_of_arguments arguments here
        exact ⟨wildcard, bound, List.mem_append_right _ given, held⟩

theorem exists_holds_of_arguments : ∀ arguments : List TypeArgument,
    internal ∈ TypeArgument.internalsOf arguments →
      ∃ wildcard bound, .bounded wildcard bound ∈ arguments ∧
        ∃ part, Reference.Holds bound part ∧ String.ofList part.internal = internal
  | [] => nofun
  | .any :: rest => by
      rw [TypeArgument.internalsOf, TypeArgument.internals, List.nil_append]
      intro later
      obtain ⟨wildcard, bound, given, held⟩ := exists_holds_of_arguments rest later
      exact ⟨wildcard, bound, List.mem_cons_of_mem _ given, held⟩
  | .bounded wildcard bound :: rest => by
      rw [TypeArgument.internalsOf, List.mem_append]
      rintro (here | later)
      · exact ⟨wildcard, bound, List.mem_cons_self, exists_holds_of_internals bound here⟩
      · obtain ⟨other, inner, given, held⟩ := exists_holds_of_arguments rest later
        exact ⟨other, inner, List.mem_cons_of_mem _ given, held⟩

/-- What is gathered from a reference stands in it. -/
theorem exists_holds_of_internals : ∀ reference : Reference,
    internal ∈ reference.internals →
      ∃ part, reference.Holds part ∧ String.ofList part.internal = internal
  | .ofClass type => by
      rw [Reference.internals, List.mem_append, List.mem_singleton]
      rintro (inside | rfl)
      · obtain ⟨_, _, given, part, held, named⟩ := exists_holds_of_inside type inside
        exact ⟨part, .argument given held, named⟩
      · exact ⟨type, .itself type, rfl⟩
  | .variable _ => nofun
  | .array element => by
      rw [Reference.internals]
      intro gathered
      obtain ⟨part, held, named⟩ := exists_holds_of_internals element gathered
      exact ⟨part, .element held, named⟩
  | .primitives _ => nofun

end

/-- The class types that are gathered from a reference are those that stand in it. -/
theorem Reference.mem_internals {reference : Reference} :
    internal ∈ reference.internals ↔
      ∃ part, reference.Holds part ∧ String.ofList part.internal = internal := by
  refine ⟨exists_holds_of_internals reference, ?_⟩
  rintro ⟨part, held, rfl⟩
  induction held with
  | itself type => exact List.mem_append_right _ List.mem_cons_self
  | element _ gathered => exact gathered
  | argument given _ gathered =>
      exact List.mem_append_left _ ((mem_inside _).mpr ⟨_, _, given, gathered⟩)

end Gathering

/-! ### Generic types -/

theorem TypeParameter.internals_eq_flatMap (parameter : TypeParameter) :
    parameter.internals = parameter.bounds.flatMap Reference.internals := by
  rw [internals, bounds, List.flatMap_append]
  cases parameter.classBound <;> simp

theorem JavaType.flatMap_internals (types : List JavaType) :
    types.flatMap internals = (types.filterMap reference?).flatMap Reference.internals := by
  induction types with
  | nil => rfl
  | cons first rest same =>
      rw [List.flatMap_cons, same, List.filterMap_cons]
      cases first <;> rfl

namespace GenericType

theorem bodyInternals_eq_flatMap (type : GenericType) :
    type.bodyInternals = type.bodyReferences.flatMap Reference.internals := by
  cases type with
  | ofClass _ superclass interfaces =>
      rw [bodyInternals, bodyReferences, List.flatMap_map]
  | ofMethod _ arguments result throws =>
      have last : result.elim [] JavaType.internals =
          result.toList.flatMap JavaType.internals := by cases result <;> simp
      rw [bodyInternals, bodyReferences, List.flatMap_append, List.flatMap_map, last,
        ← List.flatMap_append, JavaType.flatMap_internals]
  | ofField type => simp [bodyInternals, bodyReferences]

/-- The class types of a generic type are gathered reference by reference. -/
theorem internals_eq_flatMap (type : GenericType) :
    type.internals = type.references.flatMap Reference.internals := by
  have parameters : type.parameters.flatMap TypeParameter.internals =
      (type.parameters.flatMap TypeParameter.bounds).flatMap Reference.internals := by
    rw [funext TypeParameter.internals_eq_flatMap, List.flatMap_assoc]
  rw [internals, references, List.flatMap_append, parameters, bodyInternals_eq_flatMap]

/-- The class types that are gathered from a generic type are those that stand in it. -/
theorem mem_internals {type : GenericType} {internal : String} :
    internal ∈ type.internals ↔
      ∃ part, type.Holds part ∧ String.ofList part.internal = internal := by
  simp only [internals_eq_flatMap, List.mem_flatMap, Reference.mem_internals, Holds]
  constructor
  · rintro ⟨reference, listed, part, held, named⟩
    exact ⟨part, ⟨reference, listed, held⟩, named⟩
  · rintro ⟨part, ⟨reference, listed, held⟩, named⟩
    exact ⟨reference, listed, part, held, named⟩

end GenericType

/-! ## The whole -/

namespace Signature

theorem isWellFormed_text (type : GenericType) :
    isWellFormed (String.ofList type.text) = true := by
  rw [isWellFormed, String.toList_ofList, scan_text]
  rfl

/-- Scanning the text of a generic type succeeds, and adds to a set exactly the names of the
class types that stand in it. -/
theorem collects_class_types (type : GenericType) (names : NameSet) :
    isWellFormed (String.ofList type.text) = true ∧
    ∀ name, name ∈ collect (String.ofList type.text) names ↔
      name ∈ names ∨ ∃ part, type.Holds part ∧ name = String.ofList part.className := by
  refine ⟨isWellFormed_text type, fun name => ?_⟩
  rw [mem_collect, classTypes_text, List.mem_map]
  refine or_congr_right ⟨?_, ?_⟩
  · rintro ⟨internal, gathered, rfl⟩
    obtain ⟨part, held, rfl⟩ := GenericType.mem_internals.mp gathered
    exact ⟨part, held, ofInternal_internal part⟩
  · rintro ⟨part, held, rfl⟩
    exact ⟨_, GenericType.mem_internals.mpr ⟨part, held, rfl⟩, ofInternal_internal part⟩

end Signature

end DependencyAudit.TypeText
