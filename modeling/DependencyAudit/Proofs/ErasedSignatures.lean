/-
# DependencyAudit.Proofs.ErasedSignatures -- descriptors read as signatures

Every descriptor is a signature as well, so both scanners may be given one.  They go about it
in different ways: the scanner of descriptors looks for an `L` and then for a semicolon, the
scanner of signatures knows at each character what may stand there.  On the text of an erased
type they agree (`readAlike_text`), as long as no name in it holds a character that ends a
name for one of them (`Unpunctuated`); a name may hold an `L`, a bracket or a parenthesis.

The reason is that both stand outside of names at the same places.  The scanner of signatures
takes the text of a field type from wherever a type may begin to the next item (`Begins`,
`passes_fieldType`), and completes a name at the semicolon where the other one does.

Class constants of arrays are texts of field types, and are read alike too (`read_alike`).
-/
import DependencyAudit.Proofs.Signatures

namespace DependencyAudit.TypeText

set_option autoImplicit false

/-- No name holds a character that ends one. -/
def Unpunctuated (internals : List String) : Prop :=
  ∀ internal ∈ internals, ∀ c ∈ internal.toList, c ≠ '<' ∧ c ≠ '.' ∧ c ≠ ';'

theorem unpunctuated_append {internals more : List String} :
    Unpunctuated (internals ++ more) ↔ Unpunctuated internals ∧ Unpunctuated more :=
  List.forall_mem_append

theorem Unpunctuated.closed {internals : List String} (plain : Unpunctuated internals) :
    Closed internals := by
  intro internal member semicolon
  exact (plain internal member ';' semicolon).2.2 rfl

/-- Arrays of arrays, so many deep. -/
def FieldType.arrays : Nat → FieldType → FieldType
  | 0, type => type
  | depth + 1, type => .array (arrays depth type)

theorem FieldType.text_arrays (depth : Nat) (type : FieldType) :
    (arrays depth type).text = List.replicate depth '[' ++ type.text := by
  induction depth with
  | zero => rfl
  | succ depth same => rw [arrays, text, same, List.replicate_succ, List.cons_append]

theorem FieldType.internals_arrays (depth : Nat) (type : FieldType) :
    (arrays depth type).internals = type.internals := by
  induction depth with
  | zero => rfl
  | succ depth same => rw [arrays, internals, same]

namespace Signature

/-! ## Erased types in a signature -/

/-- A type may begin in a state. -/
def Begins (state : State) : Prop :=
  ∀ c, State.isBase c = true ∨ c = 'L' ∨ c = '[' → state.step c = state.type c

theorem begins_start : Begins .start := by
  intro c start
  have other : ¬ (c = '(' ∨ c = ')' ∨ c = '^') := by
    rintro (rfl | rfl | rfl) <;> revert start <;> decide
  rw [not_or, not_or] at other
  simp [State.step, State.item, State.start, other]

theorem begins_element : Begins ⟨.types, [], .element⟩ :=
  fun _ _ => rfl

theorem isBase_letter (type : Primitive) : State.isBase type.letter = true := by
  cases type <;> decide

/-- A base type is passed over wherever a type may begin. -/
theorem passes_base {reading : Reading} (begins : Begins ⟨.types, [], reading⟩) {c : Char}
    (base : State.isBase c = true) : Passes ⟨.types, [], reading⟩ [c] [] .start := by
  refine .move ?_ (.nil .start)
  rw [begins c (.inl base), State.type, if_pos base]
  rfl

/-- A class name without punctuation is passed over up to its semicolon, and completed there. -/
theorem passes_named {internal : String}
    (plain : ∀ c ∈ internal.toList, c ≠ '<' ∧ c ≠ '.' ∧ c ≠ ';') :
    Passes ⟨.types, [], .className []⟩ (internal.toList ++ [';'])
      [ClassName.ofInternal internal] .start := by
  have collects := passes_className .types [] plain []
  have ends : Passes ⟨.types, [], .className internal.toList.reverse⟩ [';']
      [ClassName.ofInternal internal] .start := by
    refine .completes ?_ (.nil .start)
    simp [State.step, State.afterName, ClassName.ofInternal, State.start]
  rw [List.append_nil] at collects
  exact collects.append ends

theorem passes_fieldType : ∀ {type : FieldType} {reading : Reading},
    Begins ⟨.types, [], reading⟩ → Unpunctuated type.internals →
      Passes ⟨.types, [], reading⟩ type.text (type.internals.map ClassName.ofInternal) .start
  | .primitive type, _, begins, _ => passes_base begins (isBase_letter type)
  | .ofClass internal, _, begins, plain =>
      .move (begins 'L' (by decide)) (passes_named (plain internal List.mem_cons_self))
  | .array _, _, begins, plain =>
      .move (begins '[' (by decide)) (passes_fieldType begins_element plain)

theorem passes_fieldTypes {types : List FieldType}
    (plain : Unpunctuated (types.flatMap FieldType.internals)) :
    Passes .start (types.flatMap FieldType.text)
      ((types.flatMap FieldType.internals).map ClassName.ofInternal) .start := by
  induction types with
  | nil => exact .nil .start
  | cons first rest passes =>
      rw [List.flatMap_cons] at plain
      obtain ⟨head, tail⟩ := unpunctuated_append.mp plain
      rw [List.flatMap_cons, List.flatMap_cons, List.map_append]
      exact (passes_fieldType begins_start head).append (passes tail)

/-- The scanner of signatures passes over the text of an erased type, and completes its
classes. -/
theorem passes_erased {type : ErasedType} (plain : Unpunctuated type.internals) :
    Passes .start type.text (type.internals.map ClassName.ofInternal) .start := by
  cases type with
  | field type => exact passes_fieldType begins_start plain
  | method parameters result =>
      obtain ⟨ofParameters, ofResult⟩ := unpunctuated_append.mp plain
      have last : Passes .start (result.elim ['V'] FieldType.text)
          ((result.elim [] FieldType.internals).map ClassName.ofInternal) .start := by
        cases result with
        | none => exact passes_base begins_start (by decide)
        | some type => exact passes_fieldType begins_start ofResult
      rw [ErasedType.internals, List.map_append]
      exact .move rfl ((passes_fieldTypes ofParameters).append (.move rfl last))

theorem head?_fieldType (type : FieldType) : type.text.head? ≠ some '<' := by
  cases type with
  | primitive type => cases type <;> decide
  | ofClass internal => simp [FieldType.text]
  | array element => simp [FieldType.text]

theorem scan_erased {type : ErasedType} (plain : Unpunctuated type.internals) :
    scan type.text = ⟨some .start, type.internals.map ClassName.ofInternal⟩ := by
  have head : type.text.head? ≠ some '<' := by
    cases type with
    | field type => exact head?_fieldType type
    | method parameters result => simp [ErasedType.text]
  rw [scan_of_head? head]
  exact passes_erased plain

end Signature

/-! ## Both scanners -/

/-- Both scanners take a text, and add the same names to a set. -/
structure ReadAlike (text : String) (names result : NameSet) : Prop where
  asDescriptor : Descriptor.collect text names = result
  wellFormed : Signature.isWellFormed text = true
  asSignature : Signature.collect text names = result

/-- The text of an erased type is read alike, for the classes in the type. -/
theorem readAlike_text {type : ErasedType} (plain : Unpunctuated type.internals)
    (names : NameSet) :
    ReadAlike (String.ofList type.text) names
      (names.insertAll (type.internals.map ClassName.ofInternal)) where
  asDescriptor := by
    rw [Descriptor.collect, Descriptor.classTypes_text plain.closed]
  wellFormed := by
    rw [Signature.isWellFormed, String.toList_ofList, Signature.scan_erased plain]
    rfl
  asSignature := by
    rw [Signature.collect, Signature.classTypes, String.toList_ofList,
      Signature.scan_erased plain]

/-- The class constant of an array is read alike as a descriptor, and counts for the classes
in the array. -/
theorem readAlike_arrays {type : FieldType} (plain : Unpunctuated type.internals) (depth : Nat)
    (names : NameSet) :
    ReadAlike (String.ofList (List.replicate (depth + 1) '[' ++ type.text)) names
        (names.insertAll (type.internals.map ClassName.ofInternal)) ∧
      ClassFile.constantTypes (String.ofList (List.replicate (depth + 1) '[' ++ type.text)) =
        type.internals.map ClassName.ofInternal := by
  have whole : Unpunctuated (ErasedType.field (type.arrays (depth + 1))).internals := by
    rwa [ErasedType.internals, FieldType.internals_arrays]
  have element : Closed (type.arrays depth).internals := by
    rw [FieldType.internals_arrays]
    exact plain.closed
  have read := readAlike_text whole names
  have constant := ClassFile.constantTypes_array element
  rw [ErasedType.text, ErasedType.internals, FieldType.text_arrays,
    FieldType.internals_arrays] at read
  rw [FieldType.internals_arrays, FieldType.text, FieldType.text_arrays, ← List.cons_append,
    ← List.replicate_succ] at constant
  exact ⟨read, constant⟩

/-- **Both scanners find the classes of a descriptor.**  Given any set, they add to it exactly
the names of the classes in a type, with dots for slashes, and the text is a signature without
fault.  The class constant of an array counts for the one class in it, and for none if it is an
array of primitives. -/
theorem read_alike (names : NameSet) :
    (∀ type : ErasedType, Unpunctuated type.internals →
      ReadAlike (String.ofList type.text) names
        (names.insertAll (type.internals.map ClassName.ofInternal))) ∧
    (∀ depth internal, Unpunctuated [internal] →
      let text := String.ofList
        (List.replicate (depth + 1) '[' ++ ('L' :: internal.toList ++ [';']))
      ReadAlike text names (names.insert (ClassName.ofInternal internal)) ∧
        ClassFile.constantTypes text = [ClassName.ofInternal internal]) ∧
    ∀ depth (primitive : Primitive),
      let text := String.ofList (List.replicate (depth + 1) '[' ++ [primitive.letter])
      ReadAlike text names names ∧ ClassFile.constantTypes text = [] := by
  refine ⟨?_, ?_, ?_⟩
  · intro type plain
    exact readAlike_text plain names
  · intro depth internal plain
    have single : Unpunctuated (FieldType.ofClass internal).internals := plain
    exact readAlike_arrays single depth names
  · intro depth primitive
    have plain : Unpunctuated (FieldType.primitive primitive).internals := by
      simp [FieldType.internals, Unpunctuated]
    exact readAlike_arrays plain depth names

/-! ### Names that look like other parts of a type -/

namespace Lookalikes

/-- A method whose types have names with brackets and with letters that begin types. -/
def method : ErasedType :=
  .method [.array (.array (.ofClass "LT/V([")), .primitive .int, .ofClass ")"]
    (some (.ofClass "(a)/é^"))

def known : NameSet := .ofList ["x.Y"]

theorem unpunctuated_method : Unpunctuated method.internals := by
  have internals : method.internals = ["LT/V([", ")", "(a)/é^"] := by decide +kernel
  rw [internals, Unpunctuated]
  simp

end Lookalikes

theorem read_alike_of_lookalikes :
    ReadAlike "([[LLT/V([;IL);)L(a)/é^;" Lookalikes.known
        (.ofList ["(a).é^", ")", "LT.V([", "x.Y"]) ∧
      ReadAlike "[[L[L;" Lookalikes.known (.ofList ["[L", "x.Y"]) ∧
      ReadAlike "[[[J" Lookalikes.known Lookalikes.known := by
  have alike := read_alike Lookalikes.known
  refine ⟨?_, ?_, ?_⟩
  · have read := alike.1 Lookalikes.method Lookalikes.unpunctuated_method
    have text : String.ofList Lookalikes.method.text = "([[LLT/V([;IL);)L(a)/é^;" := by
      decide +kernel
    have names : Lookalikes.known.insertAll
        (Lookalikes.method.internals.map ClassName.ofInternal) =
          .ofList ["(a).é^", ")", "LT.V([", "x.Y"] := by decide +kernel
    rwa [text, names] at read
  · exact (alike.2.1 1 "[L" (by simp [Unpunctuated])).1
  · exact (alike.2.2 2 .long).1

end DependencyAudit.TypeText
