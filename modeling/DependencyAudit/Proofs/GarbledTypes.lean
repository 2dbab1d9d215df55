/-
# DependencyAudit.Proofs.GarbledTypes -- the types in garbled texts

A reader of UTF-8 sees replacement characters where a text of a class file has a NUL or a
supplementary character.  The scanners of descriptors and signatures take notice of a few
characters only (`Signature.marks`), and neither those that are replaced nor their replacements
are among them: inside of a name they are collected, in the name of a parameter or variable they
are passed over, and in all other places they are refused alike.

So the machine goes through a garbled text as it goes through the text itself, with garbled
names in its memory (`Signature.run_garbled`), and of a garbled text it finds the garbled names of
the classes in the text, no more and no fewer (`Descriptor.classTypes_garbled`,
`Signature.classTypes_garbled`, `constantTypes_garbled`).
-/
import DependencyAudit.Proofs.Descriptors
import DependencyAudit.Proofs.ModifiedUtf8

namespace DependencyAudit

open Text.ModifiedUtf8

set_option autoImplicit false

/-! ## Names -/

namespace Text.ModifiedUtf8

theorem ne_of_not_plain {c d : Char} (other : ¬ IsPlain c) (plain : IsPlain d) : c ≠ d := by
  rintro rfl
  exact other plain

theorem reverse_garble (c : Char) : (garble c).reverse = garble c := by
  unfold garble
  split
  · rfl
  · exact List.reverse_replicate

theorem reverse_flatMap_garble (cs : List Char) :
    (cs.flatMap garble).reverse = cs.reverse.flatMap garble := by
  rw [List.reverse_flatMap]
  exact congrArg (List.flatMap · cs.reverse) (funext reverse_garble)

/-- A text that is seen without any replacement is plain. -/
theorem plain_of_no_replacement {text : String} (clean : replacement ∉ (garbled text).toList) :
    Plain text := by
  intro c member
  by_contra other
  obtain ⟨more, shape⟩ := exists_garble_of_not_plain other
  rw [garbled, String.toList_ofList] at clean
  refine clean (List.mem_flatMap.mpr ⟨c, member, ?_⟩)
  rw [shape]
  exact List.mem_cons_self

/-- A garbled text begins with a mark if the text does. -/
theorem head?_flatMap_garble {mark : Char} (plain : IsPlain mark) (kept : mark ≠ replacement)
    (cs : List Char) : (cs.flatMap garble).head? = some mark ↔ cs.head? = some mark := by
  cases cs with
  | nil => rfl
  | cons c rest =>
      rw [List.flatMap_cons, List.head?_cons]
      by_cases own : IsPlain c
      · rw [garble_of_plain own]
        rfl
      · obtain ⟨more, shape⟩ := exists_garble_of_not_plain own
        have seen : (garble c ++ rest.flatMap garble).head? = some replacement := by
          rw [shape]
          rfl
        rw [seen, Option.some.injEq, Option.some.injEq]
        exact iff_of_false (Ne.symm kept) (ne_of_not_plain own plain)

end Text.ModifiedUtf8

namespace ClassName

theorem dotted_garble (c : Char) :
    dotted (garble c) = garble (if c = '/' then '.' else c) := by
  by_cases plain : IsPlain c
  · rw [garble_of_plain plain]
    by_cases slash : c = '/'
    · rw [slash]
      decide
    · rw [if_neg slash, garble_of_plain plain, dotted_eq_self]
      simpa using Ne.symm slash
  · obtain ⟨more, shape⟩ := exists_garble_of_not_plain plain
    rw [if_neg (ne_of_not_plain plain (by decide)), shape]
    exact dotted_eq_self fun slash => absurd (List.eq_of_mem_replicate slash) (by decide)

theorem dotted_flatMap_garble (cs : List Char) :
    dotted (cs.flatMap garble) = (dotted cs).flatMap garble := by
  induction cs with
  | nil => rfl
  | cons c rest same =>
      have first := dotted_garble c
      unfold dotted at same first ⊢
      rw [List.flatMap_cons, List.map_append, same, first, List.map_cons, List.flatMap_cons]

theorem ofInternal_garbled (internal : String) :
    ofInternal (garbled internal) = garbled (ofInternal internal) := by
  simp only [ofInternal, garbled, String.toList_ofList, dotted_flatMap_garble]

/-- The class name of collected characters, garbled as they are collected. -/
theorem ofReversed_garbled (reversed : List Char) :
    String.ofList (dotted (reversed.flatMap garble).reverse) =
      garbled (String.ofList (dotted reversed.reverse)) := by
  rw [reverse_flatMap_garble, dotted_flatMap_garble, garbled, String.toList_ofList]

end ClassName

namespace TypeText

/-! ## Descriptors -/

namespace Descriptor

def Place.garbled : Place → Place
  | .outside => .outside
  | .inside reversed => .inside (reversed.flatMap garble)

theorem scan_replicate_outside (count : Nat) (rest : List Char) :
    scan .outside (List.replicate count replacement ++ rest) = scan .outside rest := by
  induction count with
  | zero => rfl
  | succ count passed => exact passed

theorem scan_replicate_inside (count : Nat) (reversed rest : List Char) :
    scan (.inside reversed) (List.replicate count replacement ++ rest) =
      scan (.inside (List.replicate count replacement ++ reversed)) rest := by
  induction count generalizing reversed with
  | zero => rfl
  | succ count collected =>
      change scan (.inside (replacement :: reversed)) (List.replicate count replacement ++ rest) = _
      rw [collected, List.replicate_succ', List.append_assoc]
      rfl

/-- What is seen of a character leads to where the character leads. -/
theorem scan_garble (place : Place) (c : Char) (rest : List Char) :
    scan place.garbled (garble c ++ rest) =
      let tail := scan (step place c).1.garbled rest
      (tail.1, (step place c).2.toList.map garbled ++ tail.2) := by
  by_cases plain : IsPlain c
  · rw [garble_of_plain plain]
    cases place with
    | outside =>
        by_cases opens : c = 'L' <;> simp [Place.garbled, scan, step, opens]
    | inside reversed =>
        by_cases closes : c = ';'
        · simp [Place.garbled, scan, step, closes, ClassName.ofReversed_garbled]
        · simp [Place.garbled, scan, step, closes, garble_of_plain plain]
  · obtain ⟨more, shape⟩ := exists_garble_of_not_plain plain
    cases place with
    | outside =>
        have outside : step .outside c = (.outside, none) := by
          rw [step, if_neg (ne_of_not_plain plain (by decide))]
        rw [outside, shape]
        exact scan_replicate_outside _ rest
    | inside reversed =>
        have inside : step (.inside reversed) c = (.inside (c :: reversed), none) := by
          rw [step, if_neg (ne_of_not_plain plain (by decide))]
        rw [inside, Place.garbled, shape, scan_replicate_inside, Place.garbled, List.flatMap_cons,
          shape]
        rfl

theorem scan_garbled (place : Place) (cs : List Char) :
    scan place.garbled (cs.flatMap garble) =
      ((scan place cs).1.garbled, (scan place cs).2.map garbled) := by
  induction cs generalizing place with
  | nil => rfl
  | cons c rest scanned =>
      rw [List.flatMap_cons, scan_garble, scanned, scan, List.map_append]

/-- A garbled descriptor names the garbled classes. -/
theorem classTypes_garbled (descriptor : String) :
    classTypes (garbled descriptor) = (classTypes descriptor).map garbled := by
  rw [classTypes, garbled, String.toList_ofList]
  exact congrArg Prod.snd (scan_garbled .outside descriptor.toList)

end Descriptor

/-! ## Signatures -/

namespace Signature

/-- The characters that the machine takes notice of. -/
def marks : List Char :=
  ['B', 'C', 'D', 'F', 'I', 'J', 'S', 'Z', 'V', 'L', 'T', '[', '<', '>', '.', ';', ':', '*', '+',
    '-', '(', ')', '^']

theorem not_mark_of_not_plain {c : Char} (other : ¬ IsPlain c) : c ∉ marks := by
  have plain : marks.all (IsPlain ·) = true := by decide
  exact fun mark => other (of_decide_eq_true (List.all_eq_true.mp plain c mark))

def Reading.garbled : Reading → Reading
  | .className reversed => .className (reversed.flatMap garble)
  | .classTail reversed => .classTail (reversed.flatMap garble)
  | reading => reading

def State.garbled (state : State) : State :=
  ⟨state.outermost, state.enclosing.map (List.flatMap garble), state.reading.garbled⟩

def Move.garbled : Move → Move
  | .move state => .move state.garbled
  | .names className state => .names (Text.ModifiedUtf8.garbled className) state.garbled
  | .refuse => .refuse

/-- What a character that is no mark leads to. -/
def State.pass (state : State) (c : Char) : Move :=
  match state.reading with
  | .item =>
      match state.enclosing, state.outermost with
      | [], .parameters => state.read .parameterName
      | _, _ => .refuse
  | .parameterName | .bound => state.read .parameterName
  | .variableName => state.read .variableName
  | .className reversed => state.read (.className (c :: reversed))
  | .wildcard | .element | .classTail _ => .refuse

theorem State.step_of_not_mark {c : Char} (other : c ∉ marks) (state : State) :
    state.step c = state.pass c := by
  obtain ⟨outermost, enclosing, reading⟩ := state
  simp only [marks, List.mem_cons, List.not_mem_nil, or_false, not_or] at other
  cases reading with
  | item =>
      cases enclosing with
      | nil =>
          cases outermost <;> simp [step, pass, item, parameter, type, isBase, reference, other]
      | cons => simp [step, pass, item, reference, other]
  | _ => simp [step, pass, parameter, type, isBase, reference, afterName, other]

section Steps

variable (state : State) (c : Char)

theorem State.reference_garbled :
    state.garbled.reference c = (state.reference c).garbled := by
  unfold reference
  split
  · rfl
  split
  · rfl
  split <;> rfl

theorem State.type_garbled : state.garbled.type c = (state.type c).garbled := by
  unfold type
  split
  · rfl
  · exact state.reference_garbled c

theorem State.parameter_garbled :
    state.garbled.parameter c = (state.parameter c).garbled := by
  unfold parameter
  split
  · rfl
  split <;> rfl

theorem State.afterName_garbled (reversed : List Char) :
    state.garbled.afterName (reversed.flatMap garble) c =
      (state.afterName reversed c).garbled := by
  unfold afterName
  split
  · rfl
  split
  · rfl
  split
  · rw [ClassName.ofReversed_garbled]
    rfl
  · rfl

theorem State.item_garbled : state.garbled.item c = (state.item c).garbled := by
  obtain ⟨outermost, enclosing, reading⟩ := state
  cases enclosing with
  | cons reversed outer =>
      simp only [garbled, item, List.map_cons]
      split
      · rfl
      split
      · rfl
      split
      · rfl
      · exact reference_garbled ⟨outermost, reversed :: outer, reading⟩ c
  | nil =>
      cases outermost with
      | parameters => exact parameter_garbled ⟨.parameters, [], reading⟩ c
      | types =>
          simp only [garbled, item, List.map_nil]
          split
          · rfl
          · exact type_garbled ⟨.types, [], reading⟩ c

/-- The machine reads a plain character alike. -/
theorem State.step_garbled (plain : IsPlain c) : state.garbled.step c = (state.step c).garbled := by
  obtain ⟨outermost, enclosing, reading⟩ := state
  cases reading with
  | item => exact item_garbled ⟨outermost, enclosing, .item⟩ c
  | parameterName =>
      simp only [garbled, Reading.garbled, step]
      split <;> rfl
  | bound =>
      simp only [garbled, Reading.garbled, step]
      split
      · exact reference_garbled ⟨outermost, enclosing, .bound⟩ c
      · exact parameter_garbled ⟨outermost, enclosing, .bound⟩ c
  | wildcard => exact reference_garbled ⟨outermost, enclosing, .wildcard⟩ c
  | element => exact type_garbled ⟨outermost, enclosing, .element⟩ c
  | variableName =>
      simp only [garbled, Reading.garbled, step]
      split <;> rfl
  | className reversed =>
      simp only [garbled, Reading.garbled, step]
      split
      · exact afterName_garbled ⟨outermost, enclosing, .className reversed⟩ c reversed
      · simp only [read, Move.garbled, garbled, Reading.garbled, List.flatMap_cons,
          garble_of_plain plain, List.singleton_append]
  | classTail reversed =>
      exact afterName_garbled ⟨outermost, enclosing, .classTail reversed⟩ c reversed

end Steps

/-! ## Runs -/

def Run.garbled (run : Run) : Run :=
  ⟨run.state.map State.garbled, run.named.map Text.ModifiedUtf8.garbled⟩

/-- What a move leads to in front of a text. -/
def Move.then (move : Move) (rest : List Char) : Run :=
  match move with
  | .move next => run next rest
  | .names className next => ⟨(run next rest).state, className :: (run next rest).named⟩
  | .refuse => ⟨none, []⟩

theorem run_cons (state : State) (c : Char) (rest : List Char) :
    run state (c :: rest) = (state.step c).then rest := by
  rw [run]
  cases state.step c <;> rfl

theorem replacement_not_mark : replacement ∉ marks := by decide

/-- Replacements are passed over where a name is read that nobody keeps. -/
theorem run_replicate_of_stays {state : State} (stays : state.pass replacement = .move state)
    (count : Nat) (rest : List Char) :
    run state (List.replicate count replacement ++ rest) = run state rest := by
  induction count with
  | zero => rfl
  | succ count passed =>
      rw [List.replicate_succ, List.cons_append, run_cons,
        state.step_of_not_mark replacement_not_mark, stays]
      exact passed

/-- Replacements are collected in the name of a class. -/
theorem run_replicate_className (outermost : Section) (enclosing : List (List Char)) (count : Nat)
    (reversed rest : List Char) :
    run ⟨outermost, enclosing, .className reversed⟩ (List.replicate count replacement ++ rest) =
      run ⟨outermost, enclosing, .className (List.replicate count replacement ++ reversed)⟩
        rest := by
  induction count generalizing reversed with
  | zero => rfl
  | succ count collected =>
      rw [List.replicate_succ, List.cons_append, run_cons,
        State.step_of_not_mark replacement_not_mark]
      change run ⟨outermost, enclosing, .className (replacement :: reversed)⟩ _ = _
      rw [collected, ← List.replicate_succ, List.replicate_succ', List.append_assoc]
      rfl

/-- Replacements lead to where the character that they stand for leads. -/
theorem run_replacements {c : Char} (other : ¬ IsPlain c) (state : State) (rest : List Char) :
    run state.garbled (garble c ++ rest) = (state.step c).garbled.then rest := by
  obtain ⟨more, shape⟩ := exists_garble_of_not_plain other
  obtain ⟨outermost, enclosing, reading⟩ := state
  rw [State.step_of_not_mark (not_mark_of_not_plain other)]
  cases reading with
  | className reversed =>
      rw [shape]
      refine (run_replicate_className outermost _ (more + 1) _ rest).trans ?_
      rw [← shape]
      rfl
  | item =>
      rw [shape, List.replicate_succ, List.cons_append, run_cons,
        State.step_of_not_mark replacement_not_mark]
      cases enclosing with
      | cons reversed outer => rfl
      | nil =>
          cases outermost with
          | parameters => exact run_replicate_of_stays rfl more rest
          | types => rfl
  | parameterName =>
      rw [shape]
      exact run_replicate_of_stays rfl (more + 1) rest
  | variableName =>
      rw [shape]
      exact run_replicate_of_stays rfl (more + 1) rest
  | bound =>
      rw [shape, List.replicate_succ, List.cons_append, run_cons,
        State.step_of_not_mark replacement_not_mark]
      exact run_replicate_of_stays rfl more rest
  | _ =>
      rw [shape, List.replicate_succ, List.cons_append, run_cons,
        State.step_of_not_mark replacement_not_mark]
      rfl

theorem run_garble (state : State) (c : Char) (rest : List Char) :
    run state.garbled (garble c ++ rest) = (state.step c).garbled.then rest := by
  by_cases plain : IsPlain c
  · rw [garble_of_plain plain, List.singleton_append, run_cons, state.step_garbled c plain]
  · exact run_replacements plain state rest

theorem run_garbled (state : State) (cs : List Char) :
    run state.garbled (cs.flatMap garble) = (run state cs).garbled := by
  induction cs generalizing state with
  | nil => rfl
  | cons c rest ran =>
      rw [List.flatMap_cons, run_garble, run_cons]
      cases state.step c with
      | move next => exact ran next
      | names className next => simp only [Move.garbled, Move.then, ran, Run.garbled, List.map_cons]
      | refuse => rfl

theorem scan_eq_run {cs : List Char} (other : cs.head? ≠ some '<') : scan cs = run .start cs := by
  unfold scan
  split
  · exact absurd rfl other
  · rfl

theorem scan_garbled (cs : List Char) : scan (cs.flatMap garble) = (scan cs).garbled := by
  by_cases opens : cs.head? = some '<'
  · obtain ⟨rest, rfl⟩ := List.head?_eq_some_iff.mp opens
    exact run_garbled ⟨.parameters, [], .item⟩ rest
  · have other := mt (head?_flatMap_garble (by decide) (by decide) cs).mp opens
    rw [scan_eq_run opens, scan_eq_run other]
    exact run_garbled .start cs

/-- A garbled signature names the garbled classes. -/
theorem classTypes_garbled (signature : String) :
    classTypes (garbled signature) = (classTypes signature).map garbled := by
  rw [classTypes, garbled, String.toList_ofList, scan_garbled]
  rfl

end Signature

end TypeText

namespace ClassFile

open TypeText

/-- A garbled class constant names the garbled classes. -/
theorem constantTypes_garbled (internal : String) :
    constantTypes (garbled internal) = (constantTypes internal).map garbled := by
  have heads := @head?_flatMap_garble '[' (by decide) (by decide) internal.toList
  by_cases array : internal.toList.head? = some '['
  · have element : ∀ {text : String}, text.toList.head? = some '[' →
        constantTypes text = Descriptor.classTypes text := by
      intro text begins
      obtain ⟨rest, shape⟩ := List.head?_eq_some_iff.mp begins
      simp only [constantTypes, shape]
    rw [element array, element, Descriptor.classTypes_garbled]
    rw [garbled, String.toList_ofList]
    exact heads.mpr array
  · rw [constantTypes_ofInternal array, constantTypes_ofInternal, ClassName.ofInternal_garbled]
    · rfl
    · rw [garbled, String.toList_ofList]
      exact mt heads.mp array

end ClassFile

end DependencyAudit
