/-
# DependencyAudit.Proofs.CutSignatures -- signatures that are cut or have a fault

A scan of a signature stops at a character with no place in it, and what was named before that
stays named.  Since the scanner refuses a character only if no signature goes on with it, the
part before the fault is the most of the text that begins some signature (`isBeginning_iff`,
`exists_beforeFault`).

That needs a signature for every beginning that is not refused.  In every state of the scanner
there is a way to go on to the end (`completes`): what is being read is completed, and the
arguments that are open are closed from the innermost to the outermost.

So a text that is cut, or has a fault, names nothing but what signatures that begin like it name
too, and whoever ignores the fault loses no name that was there (`scans_invent_nothing`).
-/
import DependencyAudit.ClassFile.Basic
import DependencyAudit.Proofs.SafeScans

namespace DependencyAudit.TypeText

set_option autoImplicit false

namespace Signature

/-! ## Completions -/

/-- A signature may go on from a state. -/
def Completes (state : State) : Prop :=
  ∃ more names next, Passes state more names next ∧ next.accepts = true

section Completions

variable {state middle : State} (c : Char)

theorem Completes.of_move (completes : Completes middle) (moves : state.step c = .move middle) :
    Completes state := by
  obtain ⟨more, names, next, passes, accepts⟩ := completes
  exact ⟨c :: more, names, next, .move moves passes, accepts⟩

theorem Completes.of_names {name : String} (completes : Completes middle)
    (named : state.step c = .names name middle) : Completes state := by
  obtain ⟨more, names, next, passes, accepts⟩ := completes
  exact ⟨c :: more, name :: names, next, .completes named passes, accepts⟩

end Completions

/-- Open arguments are closed one by one, each with a bracket and the semicolon of the class type
that they belong to. -/
theorem completes_item (outermost : Section) (enclosing : List (List Char)) :
    Completes ⟨outermost, enclosing, .item⟩ := by
  induction enclosing with
  | nil =>
      cases outermost with
      | parameters => exact ⟨['>'], [], _, .move rfl (.nil _), rfl⟩
      | types => exact ⟨[], [], _, .nil _, rfl⟩
  | cons reversed outer closed =>
      have tail : Completes ⟨outermost, outer, .classTail reversed⟩ := closed.of_names ';' rfl
      exact tail.of_move '>' rfl

/-- A signature may go on from every state. -/
theorem completes (state : State) : Completes state := by
  obtain ⟨outermost, enclosing, reading⟩ := state
  have item := completes_item outermost enclosing
  have variable_ : Completes ⟨outermost, enclosing, .variableName⟩ := item.of_move ';' rfl
  have bound : Completes ⟨outermost, enclosing, .bound⟩ :=
    (completes_item .types []).of_move '>' rfl
  cases reading with
  | item => exact item
  | parameterName => exact bound.of_move ':' rfl
  | bound => exact bound
  | wildcard => exact variable_.of_move 'T' rfl
  | element => exact item.of_move 'B' rfl
  | variableName => exact variable_
  | className reversed => exact item.of_names ';' rfl
  | classTail reversed => exact item.of_names ';' rfl

/-! ## Faults -/

/-- What the scanner reads before it refuses a character, if it does, names all that it names. -/
theorem exists_passed (state : State) (cs : List Char) :
    ∃ front rest next, cs = front ++ rest ∧ Passes state front (run state cs).named next ∧
      ∀ c more, rest = c :: more → (run state (front ++ [c])).state = none := by
  induction cs generalizing state with
  | nil => exact ⟨[], [], state, rfl, .nil state, nofun⟩
  | cons c cs goes =>
      cases step : state.step c with
      | move middle =>
          obtain ⟨front, rest, next, rfl, passes, ends⟩ := goes middle
          refine ⟨c :: front, rest, next, rfl, ?_, fun d more shape => ?_⟩
          · simp only [run, step]
            exact .move step passes
          · simpa only [List.cons_append, run, step] using ends d more shape
      | names name middle =>
          obtain ⟨front, rest, next, rfl, passes, ends⟩ := goes middle
          refine ⟨c :: front, rest, next, rfl, ?_, fun d more shape => ?_⟩
          · simp only [run, step]
            exact .completes step passes
          · simpa only [List.cons_append, run, step] using ends d more shape
      | refuse =>
          refine ⟨[], c :: cs, state, rfl, ?_, fun d more shape => ?_⟩
          · simp only [run, step]
            exact .nil state
          · obtain ⟨rfl, rfl⟩ := List.cons.inj shape
            simp only [List.nil_append, run, step]

/-- The scan of a text is the scan of its beginning, resumed. -/
theorem scan_append {cs : List Char} (filled : cs ≠ []) (ds : List Char) :
    scan (cs ++ ds) =
      match (scan cs).state with
      | none => scan cs
      | some next => ⟨(run next ds).state, (scan cs).named ++ (run next ds).named⟩ := by
  obtain ⟨c, rest, rfl⟩ := List.exists_cons_of_ne_nil filled
  by_cases open_ : c = '<'
  · subst open_
    exact run_append _ rest ds
  · have other : ∀ more, (c :: more).head? ≠ some '<' := by simpa using open_
    rw [List.cons_append, scan_of_head? (other _), scan_of_head? (other _), ← List.cons_append]
    exact run_append _ (c :: rest) ds

theorem scan_append_of_refused {cs : List Char} (filled : cs ≠ [])
    (refused : (scan cs).state = none) (ds : List Char) : (scan (cs ++ ds)).state = none := by
  rw [scan_append filled, refused]
  exact refused

/-- A whole text is a signature up to its fault. -/
theorem exists_scanned (cs : List Char) :
    ∃ front rest, cs = front ++ rest ∧ (∃ next, scan front = ⟨some next, (scan cs).named⟩) ∧
      ∀ c more, rest = c :: more → (scan (front ++ [c])).state = none := by
  by_cases open_ : cs.head? = some '<'
  · obtain ⟨inside, rfl⟩ := List.head?_eq_some_iff.mp open_
    obtain ⟨front, rest, next, rfl, passes, ends⟩ := exists_passed ⟨.parameters, [], .item⟩ inside
    exact ⟨'<' :: front, rest, rfl, ⟨next, passes⟩, ends⟩
  · obtain ⟨front, rest, next, rfl, passes, ends⟩ := exists_passed .start cs
    have shorter : front.head? ≠ some '<' := by
      cases front <;> simp_all
    refine ⟨front, rest, rfl, ⟨next, ?_⟩, fun c more shape => ?_⟩
    · rw [scan_of_head? open_, scan_of_head? shorter]
      exact passes
    · subst shape
      have longer : (front ++ [c]).head? ≠ some '<' := by
        cases front <;> simp_all
      rw [scan_of_head? longer]
      exact ends c more rfl

/-- Some signature begins with a text. -/
def IsBeginning (front : String) : Prop :=
  ∃ more, isWellFormed (front ++ more) = true

/-- What begins a signature is what the scanner does not refuse. -/
theorem isBeginning_iff {front : String} :
    IsBeginning front ↔ (scan front.toList).state ≠ none := by
  by_cases filled : front.toList = []
  · have accepted : isWellFormed (front ++ "") = true := by
      rw [isWellFormed, String.toList_append, filled]
      rfl
    rw [filled]
    exact ⟨fun _ => Option.some_ne_none State.start, fun _ => ⟨"", accepted⟩⟩
  · constructor
    · rintro ⟨more, accepted⟩ refused
      rw [isWellFormed, String.toList_append, scan_append_of_refused filled refused] at accepted
      cases accepted
    · intro reached
      obtain ⟨state, shape⟩ := Option.ne_none_iff_exists'.mp reached
      obtain ⟨more, names, next, passes, accepts⟩ := completes state
      refine ⟨String.ofList more, ?_⟩
      have ran : run state more = ⟨some next, names⟩ := passes
      rw [isWellFormed, String.toList_append, String.toList_ofList, scan_append filled]
      simp only [shape, ran]
      exact accepts

/-- The part of a text before its fault, if it has one: the most of it that begins a signature. -/
structure BeforeFault (text before : String) : Prop where
  parted : ∃ after, text = before ++ after
  begins : IsBeginning before
  longest : ∀ longer after, text = longer ++ after → IsBeginning longer →
    longer.toList.length ≤ before.toList.length

/-- What a text names, it names before its fault. -/
theorem exists_beforeFault (text : String) :
    ∃ before, BeforeFault text before ∧ classTypes text = classTypes before := by
  obtain ⟨front, rest, parted, ⟨next, scanned⟩, ends⟩ := exists_scanned text.toList
  refine ⟨String.ofList front, ⟨⟨String.ofList rest, ?_⟩, ?_, ?_⟩, ?_⟩
  · rw [← String.toList_inj, parted, String.toList_append, String.toList_ofList,
      String.toList_ofList]
  · rw [isBeginning_iff, String.toList_ofList, scanned]
    exact Option.some_ne_none next
  · intro longer after shape begins
    rw [String.toList_ofList]
    have both : front ++ rest = longer.toList ++ after.toList := by
      rw [← parted, shape, String.toList_append]
    -- A longer beginning would contain the character that was refused.
    rcases List.append_eq_append_iff.mp both with ⟨more, whole, behind⟩ | ⟨more, whole, behind⟩
    · cases more with
      | nil => rw [whole, List.append_nil]
      | cons c more =>
          have refused : (scan (front ++ [c])).state = none := ends c _ behind
          rw [isBeginning_iff, whole, List.append_cons] at begins
          exact absurd (scan_append_of_refused (by simp) refused more) begins
    · rw [whole, List.length_append]
      exact Nat.le_add_right _ _
  · rw [classTypes, classTypes, String.toList_ofList, scanned]

end Signature

namespace Descent

/-! ## What scans add -/

/-- What a scan adds is always the same, with the same outcome, whatever names there are. -/
def Adds (scanner : Nat → Scanner Unit) (outcome : Except Fault Unit) (found : List String) :
    Prop :=
  ∃ enough, ∀ budget, enough < budget → ∀ names, ∃ memory,
    run scanner budget names = some (outcome, memory) ∧
      ∀ name, name ∈ memory.names ↔ name ∈ names ∨ name ∈ found

theorem adds_of_ends {text : String} {scanner : Nat → Scanner Unit} {enough : Nat}
    {outcome : Except Fault Unit} {found : List String}
    (ends : ∀ names, Ends text scanner enough names outcome (names.insertAll found)) :
    Adds scanner outcome found := by
  refine ⟨enough, fun budget large names => ?_⟩
  obtain ⟨memory, ran, -, kept⟩ := ends names
  refine ⟨memory, ran budget large, fun name => ?_⟩
  rw [kept, NameSet.mem_insertAll]

theorem adds_signature (text : String) :
    Adds (signature text) (verdict text) (Signature.classTypes text) :=
  adds_of_ends (ends_signature text)

theorem adds_descriptor (text : String) :
    Adds (descriptor text) (.ok ()) (Descriptor.classTypes text) :=
  adds_of_ends (ends_descriptor text)

/-- A signature with a fault adds what the class file takes from it. -/
theorem addSignature_eq (signature : Option String) :
    ∃ enough, ∀ budget, enough < budget → ∀ names,
      addSignature signature budget names =
        some (names.insertAll (ClassFile.signatureTypes signature)) := by
  cases signature with
  | none => exact ⟨0, fun _ _ _ => rfl⟩
  | some text =>
      refine ⟨4 * (Text.Utf8.encodeString text).length + 3, fun budget large names => ?_⟩
      obtain ⟨memory, ran, -, kept⟩ := ends_signature text names
      rw [addSignature, ran budget large, Option.map_some]
      exact congrArg some kept

/-- **Scans invent no class.**  What they add to a set of names does not depend on the set, a text
that is cut adds no more than the whole one, and from a signature with a fault exactly the classes
before the fault are added to those that are there. -/
theorem scans_invent_nothing :
    (∀ text, Adds (signature text) (verdict text) (Signature.classTypes text)) ∧
      (∀ text, Adds (descriptor text) (.ok ()) (Descriptor.classTypes text)) ∧
      (∀ front more, Signature.classTypes front ⊆ Signature.classTypes (front ++ more) ∧
        Descriptor.classTypes front ⊆ Descriptor.classTypes (front ++ more)) ∧
      ∀ text, ∃ before, Signature.BeforeFault text before ∧
        ∃ enough, ∀ budget, enough < budget → ∀ names, ∃ kept,
          addSignature (some text) budget names = some kept ∧
            ∀ name, name ∈ kept ↔ name ∈ names ∨ name ∈ Signature.classTypes before := by
  refine ⟨adds_signature, adds_descriptor, fun front more => ⟨?_, ?_⟩, fun text => ?_⟩
  · intro name named
    rw [Signature.classTypes, String.toList_append]
    exact Signature.scan_named_subset_append named
  · intro name named
    rw [Descriptor.classTypes, String.toList_append]
    exact Descriptor.scan_classes_subset_append named
  · obtain ⟨before, parted, same⟩ := Signature.exists_beforeFault text
    obtain ⟨enough, adds⟩ := addSignature_eq (some text)
    refine ⟨before, parted, enough, fun budget large names => ⟨_, adds budget large names, ?_⟩⟩
    intro name
    rw [NameSet.mem_insertAll, ← same]
    rfl

end Descent

end DependencyAudit.TypeText
