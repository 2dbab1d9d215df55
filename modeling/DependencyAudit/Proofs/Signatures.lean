/-
# DependencyAudit.Proofs.Signatures -- signatures as generic types

A signature is the text of a generic type: of a class, with its supertypes, of a method, or
of a field.  Class types nest through their arguments, and an inner class comes after its
enclosing one and a dot; its internal name has a `$` there.

The scanner of signatures is a pushdown machine, and the text of each part of a type leads
it from one state to another (`Passes`): a reference takes it from wherever a reference may
begin (`Opens`) to the next item of the same list, whatever that list is inside of
(`passes_reference`).  So the classes it completes are the class types of the signature
(`classTypes_text`), each after those in its arguments.

A type parameter without any bound is left out, because its text can be read in two ways:
in `T:L:...` the scanner takes the `L` for the start of a bound.
-/
import DependencyAudit.Proofs.Descriptors

namespace DependencyAudit.TypeText

set_option autoImplicit false

/-! ## Generic types -/

/-- A name without the characters that signatures are made of. -/
structure Identifier where
  chars : List Char
  nonempty : chars ≠ []
  plain : ∀ c ∈ chars, c ∉ ['.', ';', '[', '/', '<', '>', ':']

/-- What may stand in front of the type of an argument. -/
inductive Wildcard where
  | exactly
  | extends_
  | super
deriving Repr, DecidableEq

def Wildcard.text : Wildcard → List Char
  | exactly => []
  | extends_ => ['+']
  | super => ['-']

mutual

/-- A class with its arguments, which may be inside of another one. -/
inductive ClassType where
  | outermost (package : List Identifier) (name : Identifier) (arguments : List TypeArgument)
  | inner (enclosing : ClassType) (name : Identifier) (arguments : List TypeArgument)

inductive TypeArgument where
  | any
  | bounded (wildcard : Wildcard) (bound : Reference)

/-- A type that is no primitive. -/
inductive Reference where
  | ofClass (type : ClassType)
  | variable (name : Identifier)
  | array (element : Reference)
  | primitives (element : Primitive)

end

/-- The internal name of a class. -/
def ClassType.internal : ClassType → List Char
  | .outermost package name _ => package.flatMap (fun part => part.chars ++ ['/']) ++ name.chars
  | .inner enclosing name _ => enclosing.internal ++ '$' :: name.chars

mutual

/-- The text of a class type, up to the semicolon. -/
def ClassType.text : ClassType → List Char
  | .outermost package name arguments =>
      package.flatMap (fun part => part.chars ++ ['/']) ++ name.chars ++
        (if arguments.isEmpty then [] else '<' :: TypeArgument.texts arguments ++ ['>'])
  | .inner enclosing name arguments =>
      enclosing.text ++ '.' :: name.chars ++
        (if arguments.isEmpty then [] else '<' :: TypeArgument.texts arguments ++ ['>'])

def TypeArgument.text : TypeArgument → List Char
  | .any => ['*']
  | .bounded wildcard bound => wildcard.text ++ bound.text

def TypeArgument.texts : List TypeArgument → List Char
  | [] => []
  | first :: rest => first.text ++ TypeArgument.texts rest

def Reference.text : Reference → List Char
  | .ofClass type => 'L' :: type.text ++ [';']
  | .variable name => 'T' :: name.chars ++ [';']
  | .array element => '[' :: element.text
  | .primitives element => ['[', element.letter]

end

mutual

/-- The internal names of the class types in the arguments of a class type. -/
def ClassType.inside : ClassType → List String
  | .outermost _ _ arguments => TypeArgument.internalsOf arguments
  | .inner enclosing _ arguments => enclosing.inside ++ TypeArgument.internalsOf arguments

def TypeArgument.internals : TypeArgument → List String
  | .any => []
  | .bounded _ bound => bound.internals

def TypeArgument.internalsOf : List TypeArgument → List String
  | [] => []
  | first :: rest => first.internals ++ TypeArgument.internalsOf rest

/-- The internal names of the class types in a reference. -/
def Reference.internals : Reference → List String
  | .ofClass type => type.inside ++ [String.ofList type.internal]
  | .variable _ => []
  | .array element => element.internals
  | .primitives _ => []

end

/-- A type parameter with at least one bound. -/
structure TypeParameter where
  name : Identifier
  classBound : Option Reference
  interfaceBounds : List Reference
  bounded : classBound.isSome ∨ interfaceBounds ≠ []

namespace TypeParameter

def text (parameter : TypeParameter) : List Char :=
  parameter.name.chars ++ ':' :: parameter.classBound.elim [] Reference.text ++
    parameter.interfaceBounds.flatMap fun bound => ':' :: bound.text

def internals (parameter : TypeParameter) : List String :=
  parameter.classBound.elim [] Reference.internals ++
    parameter.interfaceBounds.flatMap Reference.internals

end TypeParameter

/-- The type of a parameter or a result. -/
inductive JavaType where
  | primitive (type : Primitive)
  | reference (type : Reference)

namespace JavaType

def text : JavaType → List Char
  | primitive type => [type.letter]
  | reference type => type.text

def internals : JavaType → List String
  | primitive _ => []
  | reference type => type.internals

end JavaType

/-- What a method may throw. -/
inductive Thrown where
  | ofClass (type : ClassType)
  | variable (name : Identifier)

def Thrown.reference : Thrown → Reference
  | .ofClass type => .ofClass type
  | .variable name => .variable name

/-- The generic type of a class, a method or a field. -/
inductive GenericType where
  | ofClass (parameters : List TypeParameter) (superclass : ClassType)
      (interfaces : List ClassType)
  /-- The result is missing if it is `void`. -/
  | ofMethod (parameters : List TypeParameter) (arguments : List JavaType)
      (result : Option JavaType) (throws : List Thrown)
  | ofField (type : Reference)

namespace GenericType

def parameters : GenericType → List TypeParameter
  | ofClass parameters _ _ => parameters
  | ofMethod parameters _ _ _ => parameters
  | ofField _ => []

/-- The text after the type parameters. -/
def body : GenericType → List Char
  | ofClass _ superclass interfaces =>
      (superclass :: interfaces).flatMap fun type => (Reference.ofClass type).text
  | ofMethod _ arguments result throws =>
      '(' :: arguments.flatMap JavaType.text ++ ')' :: result.elim ['V'] JavaType.text ++
        throws.flatMap fun thrown => '^' :: thrown.reference.text
  | ofField type => type.text

def text (type : GenericType) : List Char :=
  if type.parameters.isEmpty then type.body
  else '<' :: type.parameters.flatMap TypeParameter.text ++ '>' :: type.body

/-- The internal names of the class types after the type parameters. -/
def bodyInternals : GenericType → List String
  | ofClass _ superclass interfaces =>
      (superclass :: interfaces).flatMap fun type => (Reference.ofClass type).internals
  | ofMethod _ arguments result throws =>
      arguments.flatMap JavaType.internals ++ result.elim [] JavaType.internals ++
        throws.flatMap fun thrown => thrown.reference.internals
  | ofField type => type.internals

/-- The internal names of the class types anywhere in a type. -/
def internals (type : GenericType) : List String :=
  type.parameters.flatMap TypeParameter.internals ++ type.bodyInternals

end GenericType

namespace Signature

/-! ## Passing over a text -/

/-- The text leads the scanner from one state to another, and completes some classes. -/
def Passes (state : State) (cs : List Char) (names : List String) (next : State) : Prop :=
  run state cs = ⟨some next, names⟩

theorem Passes.nil (state : State) : Passes state [] [] state := rfl

theorem Passes.append {state middle next : State} {cs ds : List Char} {names more : List String}
    (first : Passes state cs names middle) (second : Passes middle ds more next) :
    Passes state (cs ++ ds) (names ++ more) next := by
  have head : run state cs = ⟨some middle, names⟩ := first
  have tail : run middle ds = ⟨some next, more⟩ := second
  simp only [Passes, run_append, head, tail]

theorem Passes.move {state middle next : State} {c : Char} {cs : List Char} {names : List String}
    (moves : state.step c = .move middle) (passes : Passes middle cs names next) :
    Passes state (c :: cs) names next := by
  have tail : run middle cs = ⟨some next, names⟩ := passes
  simp [Passes, run, moves, tail]

theorem Passes.completes {state middle next : State} {c : Char} {cs : List Char} {name : String}
    {names : List String} (completes : state.step c = .names name middle)
    (passes : Passes middle cs names next) : Passes state (c :: cs) (name :: names) next := by
  have tail : run middle cs = ⟨some next, names⟩ := passes
  simp [Passes, run, completes, tail]

/-! ## Names -/

theorem Identifier.ne {name : Identifier} {c : Char} (member : c ∈ name.chars) :
    c ≠ '.' ∧ c ≠ ';' ∧ c ≠ '/' ∧ c ≠ '<' ∧ c ≠ '>' ∧ c ≠ ':' := by
  have plain := name.plain c member
  simp only [List.mem_cons, List.not_mem_nil, or_false, not_or] at plain
  exact ⟨plain.1, plain.2.1, plain.2.2.2.1, plain.2.2.2.2.1, plain.2.2.2.2.2.1, plain.2.2.2.2.2.2⟩

variable (outermost : Section) (enclosing : List (List Char))

/-- The scanner collects the characters of a class name. -/
theorem passes_className {cs : List Char} (plain : ∀ c ∈ cs, c ≠ '<' ∧ c ≠ '.' ∧ c ≠ ';') :
    ∀ reversed : List Char, Passes ⟨outermost, enclosing, .className reversed⟩ cs []
      ⟨outermost, enclosing, .className (cs.reverse ++ reversed)⟩ := by
  induction cs with
  | nil => exact fun reversed => .nil _
  | cons c rest collects =>
      intro reversed
      obtain ⟨open_, dot, semicolon⟩ := plain c List.mem_cons_self
      have tail :=
        collects (fun d member => plain d (List.mem_cons_of_mem c member)) (c :: reversed)
      rw [List.reverse_cons, List.append_assoc, List.singleton_append]
      exact .move (by simp [State.step, open_, dot, semicolon, State.read]) tail

theorem passes_identifier (name : Identifier) (reversed : List Char) :
    Passes ⟨outermost, enclosing, .className reversed⟩ name.chars []
      ⟨outermost, enclosing, .className (name.chars.reverse ++ reversed)⟩ := by
  refine passes_className outermost enclosing (fun c member => ?_) reversed
  obtain ⟨dot, semicolon, _, open_, _⟩ := Identifier.ne member
  exact ⟨open_, dot, semicolon⟩

theorem passes_package (package : List Identifier) (reversed : List Char) :
    Passes ⟨outermost, enclosing, .className reversed⟩
      (package.flatMap fun part => part.chars ++ ['/']) []
      ⟨outermost, enclosing, .className
        ((package.flatMap fun part => part.chars ++ ['/']).reverse ++ reversed)⟩ := by
  refine passes_className outermost enclosing (fun c member => ?_) reversed
  obtain ⟨part, _, inPart⟩ := List.mem_flatMap.mp member
  rcases List.mem_append.mp inPart with inName | slash
  · obtain ⟨dot, semicolon, _, open_, _⟩ := Identifier.ne inName
    exact ⟨open_, dot, semicolon⟩
  · rw [List.mem_singleton.mp slash]
    decide

/-- The name of a type variable is passed over up to the semicolon. -/
theorem passes_variable {cs : List Char} (plain : ∀ c ∈ cs, c ≠ ';') :
    Passes ⟨outermost, enclosing, .variableName⟩ (cs ++ [';']) []
      ⟨outermost, enclosing, .item⟩ := by
  induction cs with
  | nil => exact .move rfl (.nil _)
  | cons c rest passes =>
      have other := plain c List.mem_cons_self
      have tail := passes fun d member => plain d (List.mem_cons_of_mem c member)
      exact .move (by simp [State.step, other, State.read]) tail

/-! ## Where references begin -/

/-- A reference may begin in a state. -/
def Opens (state : State) : Prop :=
  ∀ c, c = 'L' ∨ c = 'T' ∨ c = '[' → state.step c = state.reference c

theorem opens_type {state : State} {c : Char} (start : c = 'L' ∨ c = 'T' ∨ c = '[') :
    state.type c = state.reference c := by
  rcases start with rfl | rfl | rfl <;> rfl

theorem opens_element : Opens ⟨outermost, enclosing, .element⟩ :=
  fun _ start => opens_type start

theorem opens_wildcard : Opens ⟨outermost, enclosing, .wildcard⟩ :=
  fun _ _ => rfl

theorem opens_bound : Opens ⟨outermost, enclosing, .bound⟩ := by
  rintro c (rfl | rfl | rfl) <;> rfl

theorem opens_argument (reversed : List Char) :
    Opens ⟨outermost, reversed :: enclosing, .item⟩ := by
  rintro c (rfl | rfl | rfl) <;> rfl

theorem opens_start : Opens .start := by
  rintro c (rfl | rfl | rfl) <;> rfl

/-! ## Class types -/

/-- What the scanner reads once it has passed over a class type up to the semicolon. -/
def after (internal : List Char) (arguments : List TypeArgument) : Reading :=
  if arguments.isEmpty then .className internal.reverse else .classTail internal.reverse

def afterClass : ClassType → Reading
  | .outermost package name arguments =>
      after (ClassType.outermost package name arguments).internal arguments
  | .inner outer name arguments => after (ClassType.inner outer name arguments).internal arguments

theorem step_after {internal : List Char} {arguments : List TypeArgument} {c : Char}
    (ends : c = '.' ∨ c = ';') :
    State.step ⟨outermost, enclosing, after internal arguments⟩ c =
      State.afterName ⟨outermost, enclosing, after internal arguments⟩ internal.reverse c := by
  unfold after
  split <;> rcases ends with rfl | rfl <;> rfl

/-- A class type is complete at its semicolon. -/
theorem step_semicolon (type : ClassType) :
    State.step ⟨outermost, enclosing, afterClass type⟩ ';' =
      .names (ClassName.ofInternal (String.ofList type.internal))
        ⟨outermost, enclosing, .item⟩ := by
  have whole : State.step ⟨outermost, enclosing, afterClass type⟩ ';' =
      .names (String.ofList (ClassName.dotted type.internal.reverse.reverse))
        ⟨outermost, enclosing, .item⟩ := by
    cases type <;> exact step_after outermost enclosing (.inr rfl)
  rw [whole, List.reverse_reverse, ClassName.ofInternal, String.toList_ofList]

theorem passes_outermost (package : List Identifier) (name : Identifier)
    (arguments : List TypeArgument) :
    Passes ⟨outermost, enclosing, .className []⟩
      (package.flatMap (fun part => part.chars ++ ['/']) ++ name.chars) []
      ⟨outermost, enclosing,
        .className (ClassType.outermost package name arguments).internal.reverse⟩ := by
  have passes := (passes_package outermost enclosing package []).append
    (passes_identifier outermost enclosing name _)
  rwa [List.append_nil, List.append_nil, ← List.reverse_append] at passes

/-- After a class type, in front of its semicolon, may come an inner one. -/
theorem passes_inner (outer : ClassType) (name : Identifier) (arguments : List TypeArgument) :
    Passes ⟨outermost, enclosing, afterClass outer⟩ ('.' :: name.chars) []
      ⟨outermost, enclosing,
        .className (ClassType.inner outer name arguments).internal.reverse⟩ := by
  have moves : State.step ⟨outermost, enclosing, afterClass outer⟩ '.' =
      .move ⟨outermost, enclosing, .className ('$' :: outer.internal.reverse)⟩ := by
    cases outer <;> exact step_after outermost enclosing (.inl rfl)
  rw [ClassType.internal, List.reverse_append, List.reverse_cons, List.append_assoc,
    List.singleton_append]
  exact .move moves (passes_identifier outermost enclosing name _)

/-- Arguments are passed over between their brackets; they may be missing. -/
theorem passes_bracketed (internal : List Char) {arguments : List TypeArgument}
    (passes : Passes ⟨outermost, internal.reverse :: enclosing, .item⟩
      (TypeArgument.texts arguments)
      ((TypeArgument.internalsOf arguments).map ClassName.ofInternal)
      ⟨outermost, internal.reverse :: enclosing, .item⟩) :
    Passes ⟨outermost, enclosing, .className internal.reverse⟩
      (if arguments.isEmpty then [] else '<' :: TypeArgument.texts arguments ++ ['>'])
      ((TypeArgument.internalsOf arguments).map ClassName.ofInternal)
      ⟨outermost, enclosing, after internal arguments⟩ := by
  cases arguments with
  | nil => exact .nil _
  | cons first rest =>
      have close : Passes ⟨outermost, internal.reverse :: enclosing, .item⟩ ['>'] []
          ⟨outermost, enclosing, .classTail internal.reverse⟩ := .move rfl (.nil _)
      have whole := passes.append close
      rw [List.append_nil] at whole
      exact .move rfl whole

/-! ## References -/

mutual

theorem passes_class (enclosing : List (List Char)) :
    ∀ type : ClassType, Passes ⟨outermost, enclosing, .className []⟩ type.text
      (type.inside.map ClassName.ofInternal) ⟨outermost, enclosing, afterClass type⟩
  | .outermost package name arguments => by
      rw [ClassType.text, ClassType.inside]
      exact (passes_outermost outermost enclosing package name arguments).append
        (passes_bracketed outermost enclosing _ (passes_arguments enclosing _ arguments))
  | .inner outer name arguments => by
      have head := (passes_class enclosing outer).append
        (passes_inner outermost enclosing outer name arguments)
      rw [List.append_nil] at head
      rw [ClassType.text, ClassType.inside, List.map_append]
      exact head.append
        (passes_bracketed outermost enclosing _ (passes_arguments enclosing _ arguments))

theorem passes_arguments (enclosing : List (List Char)) (reversed : List Char) :
    ∀ arguments : List TypeArgument, Passes ⟨outermost, reversed :: enclosing, .item⟩
      (TypeArgument.texts arguments)
      ((TypeArgument.internalsOf arguments).map ClassName.ofInternal)
      ⟨outermost, reversed :: enclosing, .item⟩
  | [] => .nil _
  | first :: rest => by
      rw [TypeArgument.texts, TypeArgument.internalsOf, List.map_append]
      exact (passes_argument enclosing reversed first).append
        (passes_arguments enclosing reversed rest)

theorem passes_argument (enclosing : List (List Char)) (reversed : List Char) :
    ∀ argument : TypeArgument, Passes ⟨outermost, reversed :: enclosing, .item⟩ argument.text
      (argument.internals.map ClassName.ofInternal) ⟨outermost, reversed :: enclosing, .item⟩
  | .any => .move rfl (.nil _)
  | .bounded wildcard bound => by
      rw [TypeArgument.text, TypeArgument.internals]
      cases wildcard with
      | exactly => exact passes_reference _ (opens_argument outermost enclosing reversed) bound
      | extends_ => exact .move rfl (passes_reference _ (opens_wildcard outermost _) bound)
      | super => exact .move rfl (passes_reference _ (opens_wildcard outermost _) bound)

/-- A reference is passed over from wherever it may begin to the next item. -/
theorem passes_reference {reading : Reading} (enclosing : List (List Char))
    (opens : Opens ⟨outermost, enclosing, reading⟩) :
    ∀ reference : Reference, Passes ⟨outermost, enclosing, reading⟩ reference.text
      (reference.internals.map ClassName.ofInternal) ⟨outermost, enclosing, .item⟩
  | .ofClass type => by
      rw [Reference.text, Reference.internals, List.map_append]
      exact .move (opens 'L' (by decide)) ((passes_class enclosing type).append
        (.completes (step_semicolon outermost enclosing type) (.nil _)))
  | .variable name =>
      .move (opens 'T' (by decide)) (passes_variable outermost enclosing fun _ member =>
        (Identifier.ne member).2.1)
  | .array element =>
      .move (opens '[' (by decide))
        (passes_reference enclosing (opens_element outermost enclosing) element)
  | .primitives element =>
      .move (opens '[' (by decide)) (by cases element <;> exact .move rfl (.nil _))

end

/-! ## Type parameters -/

/-- The name of a type parameter is passed over up to the first colon. -/
theorem passes_parameterName {cs : List Char} (plain : ∀ c ∈ cs, c ≠ ':') :
    Passes ⟨.parameters, [], .parameterName⟩ (cs ++ [':']) [] ⟨.parameters, [], .bound⟩ := by
  induction cs with
  | nil => exact .move rfl (.nil _)
  | cons c rest passes =>
      have other := plain c List.mem_cons_self
      have tail := passes fun d member => plain d (List.mem_cons_of_mem c member)
      exact .move (by simp [State.step, other, State.read]) tail

theorem passes_name (name : Identifier) :
    Passes ⟨.parameters, [], .item⟩ (name.chars ++ [':']) [] ⟨.parameters, [], .bound⟩ := by
  obtain ⟨c, rest, shape⟩ := List.exists_cons_of_ne_nil name.nonempty
  have plain : ∀ d ∈ c :: rest, d ≠ '>' ∧ d ≠ ':' := fun d member =>
    (Identifier.ne (shape ▸ member)).2.2.2.2
  obtain ⟨close, colon⟩ := plain c List.mem_cons_self
  have tail := passes_parameterName fun d member => (plain d (List.mem_cons_of_mem c member)).2
  rw [shape]
  exact .move (by simp [State.step, State.item, State.parameter, close, colon, State.read]) tail

/-- Each interface bound stands after a colon, which is read after another bound as well as
after an empty class bound. -/
theorem passes_bounds {reading : Reading} (place : reading = .item ∨ reading = .bound) :
    ∀ bounds : List Reference,
      Passes ⟨.parameters, [], reading⟩ (bounds.flatMap fun bound => ':' :: bound.text)
        ((bounds.flatMap Reference.internals).map ClassName.ofInternal)
        ⟨.parameters, [], if bounds.isEmpty then reading else .item⟩
  | [] => .nil _
  | first :: rest => by
      have colon : State.step ⟨.parameters, [], reading⟩ ':' =
          .move ⟨.parameters, [], .bound⟩ := by
        rcases place with rfl | rfl <;> rfl
      have head : Passes ⟨.parameters, [], reading⟩ (':' :: first.text) _ _ :=
        .move colon (passes_reference _ [] (opens_bound _ []) first)
      have tail := passes_bounds (.inl rfl) rest
      rw [ite_self] at tail
      rw [List.flatMap_cons, List.flatMap_cons, List.map_append]
      exact head.append tail

theorem passes_typeParameter (parameter : TypeParameter) :
    Passes ⟨.parameters, [], .item⟩ parameter.text
      (parameter.internals.map ClassName.ofInternal) ⟨.parameters, [], .item⟩ := by
  obtain ⟨name, classBound, interfaceBounds, bounded⟩ := parameter
  simp only [TypeParameter.text, TypeParameter.internals, List.map_append]
  cases classBound with
  | none =>
      have some_bound : interfaceBounds.isEmpty = false := by simpa using bounded
      have tail := passes_bounds (.inr rfl) interfaceBounds
      rw [some_bound] at tail
      exact (passes_name name).append tail
  | some bound =>
      have head := (passes_name name).append (passes_reference _ [] (opens_bound _ []) bound)
      have tail := passes_bounds (.inl rfl) interfaceBounds
      rw [ite_self] at tail
      rw [List.append_assoc, List.singleton_append] at head
      exact head.append tail

/-! ## Generic types -/

/-- Parts that lead from a state back to it lead there one after the other. -/
theorem passes_flatMap {α : Type} {state : State} {text : α → List Char}
    {names : α → List String} (passes : ∀ part : α, Passes state (text part) (names part) state) :
    ∀ parts : List α, Passes state (parts.flatMap text) (parts.flatMap names) state
  | [] => .nil state
  | first :: rest => (passes first).append (passes_flatMap passes rest)

theorem passes_start (reference : Reference) :
    Passes .start reference.text (reference.internals.map ClassName.ofInternal) .start :=
  passes_reference _ [] opens_start reference

theorem passes_javaType (type : JavaType) :
    Passes .start type.text (type.internals.map ClassName.ofInternal) .start := by
  cases type with
  | primitive type => cases type <;> exact .move rfl (.nil _)
  | reference type => exact passes_start type

theorem passes_body (type : GenericType) :
    Passes .start type.body (type.bodyInternals.map ClassName.ofInternal) .start := by
  cases type with
  | ofClass parameters superclass interfaces =>
      rw [GenericType.body, GenericType.bodyInternals, List.map_flatMap]
      exact passes_flatMap (fun type => passes_start (.ofClass type)) _
  | ofField type => exact passes_start type
  | ofMethod parameters arguments result throws =>
      have head : Passes .start ('(' :: arguments.flatMap JavaType.text) _ .start :=
        .move rfl (passes_flatMap passes_javaType arguments)
      have last : Passes .start (')' :: result.elim ['V'] JavaType.text)
          ((result.elim [] JavaType.internals).map ClassName.ofInternal) .start := by
        refine .move rfl ?_
        cases result with
        | none => exact .move rfl (.nil _)
        | some type => exact passes_javaType type
      have after : Passes .start (throws.flatMap fun thrown => '^' :: thrown.reference.text) _
          .start := passes_flatMap (fun thrown => .move rfl (passes_start thrown.reference)) throws
      simp only [GenericType.body, GenericType.bodyInternals, List.map_append, List.map_flatMap]
      exact (head.append last).append after

theorem head?_reference (reference : Reference) : reference.text.head? ≠ some '<' := by
  cases reference <;> simp [Reference.text]

theorem head?_body (type : GenericType) : type.body.head? ≠ some '<' := by
  cases type with
  | ofClass => simp [GenericType.body, Reference.text]
  | ofMethod => simp [GenericType.body]
  | ofField type => exact head?_reference type

theorem scan_of_head? {cs : List Char} (head : cs.head? ≠ some '<') : scan cs = run .start cs := by
  unfold scan
  split
  · simp at head
  · rfl

/-- The scanner passes over the whole text of a generic type, and completes its class types. -/
theorem scan_text (type : GenericType) :
    scan type.text = ⟨some .start, type.internals.map ClassName.ofInternal⟩ := by
  have body : run .start type.body = _ := passes_body type
  unfold GenericType.text GenericType.internals
  split
  · rename_i none
    rw [List.isEmpty_iff.mp none, scan_of_head? (head?_body type), body]
    rfl
  · have parameters : Passes ⟨.parameters, [], .item⟩ (type.parameters.flatMap TypeParameter.text)
        _ _ := passes_flatMap passes_typeParameter type.parameters
    have whole : Passes ⟨.parameters, [], .item⟩
        (type.parameters.flatMap TypeParameter.text ++ '>' :: type.body) _ .start :=
      parameters.append (.move rfl body)
    rw [List.map_append, List.map_flatMap]
    exact whole

/-- The classes found in the signature of a generic type are its class types. -/
theorem classTypes_text (type : GenericType) :
    classTypes (String.ofList type.text) = type.internals.map ClassName.ofInternal := by
  rw [classTypes, String.toList_ofList, scan_text]

end Signature

end DependencyAudit.TypeText
