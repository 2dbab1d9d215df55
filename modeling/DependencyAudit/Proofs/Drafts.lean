/-
# DependencyAudit.Proofs.Drafts -- pools being filled

A draft hands out an index for each text and each class that it is asked for, and the same one
when it is asked again.  The constants that follow do not move those that are there, so an
index leads in the finished pool to what it was handed out for (`constantAt?_slots`).

That is how steps on a draft are judged here: by the pool that the draft becomes a beginning
of.  A draft is `Sound` for it if all that it remembers leads there, and a step `Lays`
something if it only adds constants, keeps the draft sound, and hands out what is promised.
Steps in sequence do all that together (`Lays.bind`, `Lays.mapM`), texts, classes and pairs as
much as whole attributes (`lays_text`, `lays_classRef`, `lays_nameAndType`, `lays_signature`,
`lays_exceptions`), and the width of an index matters in one place only, where a constant is
added (`lays_push`).

Every constant that gets into a pool has its reason (`Stock`): it is a short text, a long, a
class that was asked for, or a pair whose descriptor was asked for.
-/
import DependencyAudit.ClassFile.Builder
import DependencyAudit.Proofs.Linked
import Mathlib.Data.List.Infix

namespace DependencyAudit.ClassFile

open DependencyAudit.Text

set_option autoImplicit false

/-! ## Places in a pool -/

namespace Layout

theorem slots_append (before after : List Entry) :
    slots (before ++ after) = slots before + slots after := by
  induction before with
  | nil => simp [slots]
  | cons first rest sum =>
      simp only [slots, List.cons_append, List.foldr_cons] at sum ⊢
      omega

/-- A constant stands behind the indices of those before it. -/
theorem constantAt?_slots (before : List Entry) (entry : Entry) (after : List Entry) :
    constantAt? (before ++ entry :: after) (slots before + 1) = some entry := by
  induction before with
  | nil => rfl
  | cons first rest found =>
      obtain ⟨more, wide⟩ : ∃ more, first.slots = more + 1 := by
        cases first <;> exact ⟨_, rfl⟩
      have later : slots (first :: rest) + 1 = slots rest + more + 2 := by
        have sum : slots (first :: rest) = first.slots + slots rest := by simp [slots]
        omega
      have left : slots rest + more + 2 - first.slots = slots rest + 1 := by omega
      rw [List.cons_append, later, constantAt?, left, found]

end Layout

/-- A text whose octets have a length that fits its field. -/
def Short (text : String) : Prop :=
  (Utf8.encodeString text).length < 2 ^ 16

instance (text : String) : Decidable (Short text) :=
  inferInstanceAs (Decidable (_ < _))

/-! ## Steps on a draft -/

/-- The reasons why a constant is in a pool. -/
inductive Stock (layout : Layout) (names descriptors : List String) : Entry → Prop where
  | text (value : String) (short : Short value) :
      Stock layout names descriptors (.utf8 (Utf8.encodeString value))
  | long (value : UInt64) : Stock layout names descriptors (.long value)
  | classRef (name : UInt16) (internal : String) (listed : internal ∈ names)
      (here : layout.TextAt .lossy name internal) : Stock layout names descriptors (.classRef name)
  | nameAndType (name descriptor : UInt16) (text : String) (listed : text ∈ descriptors)
      (here : layout.TextAt .lossy descriptor text) :
      Stock layout names descriptors (.nameAndType name descriptor)

namespace Stock

variable {layout : Layout} {names descriptors : List String} {entry : Entry} {index : UInt16}

/-- A class constant is there for a class that was asked for. -/
theorem exists_name (reason : Stock layout names descriptors entry)
    (leads : entry.classIndex? = some index) :
    ∃ internal ∈ names, layout.TextAt .lossy index internal := by
  cases reason with
  | classRef name internal listed here =>
      cases leads
      exact ⟨internal, listed, here⟩
  | text => cases leads
  | long => cases leads
  | nameAndType => cases leads

/-- A constant with a descriptor is there for one that was asked for. -/
theorem exists_descriptor (reason : Stock layout names descriptors entry)
    (leads : entry.descriptorIndex? = some index) :
    ∃ text ∈ descriptors, layout.TextAt .lossy index text := by
  cases reason with
  | nameAndType name descriptor text listed here =>
      cases leads
      exact ⟨text, listed, here⟩
  | text => cases leads
  | long => cases leads
  | classRef => cases leads

theorem textLength_lt (reason : Stock layout names descriptors entry) :
    entry.textLength < 2 ^ 16 := by
  cases reason with
  | text value short => exact short
  | _ => simp [Entry.textLength]

end Stock

/-- The constants of a draft have their reasons, and what it remembers leads there. -/
structure Draft.Sound (layout : Layout) (names descriptors : List String) (draft : Draft) :
    Prop where
  stock : ∀ entry ∈ draft.entries, Stock layout names descriptors entry
  texts : ∀ value index, draft.texts.lookup value = some index → layout.TextAt .lossy index value
  classes : ∀ internal index, draft.classes.lookup internal = some index →
    layout.ClassAt .lossy index internal

theorem Draft.sound_empty (layout : Layout) (names descriptors : List String) :
    Draft.empty.Sound layout names descriptors where
  stock := by simp [Draft.empty]
  texts := by simp [Draft.empty]
  classes := by simp [Draft.empty]

/-- A step adds constants to a draft, and as long as the draft is a beginning of the pool it
stays sound and the step comes to what is promised. -/
structure Lays {α : Type} (layout : Layout) (names descriptors : List String)
    (step : StateM Draft α) (promise : α → Prop) : Prop where
  grows : ∀ draft, draft.entries <+: (step.run draft).2.entries
  keeps : ∀ draft, draft.Sound layout names descriptors →
    (step.run draft).2.entries <+: layout.pool →
      (step.run draft).2.Sound layout names descriptors ∧ promise (step.run draft).1

section Steps

variable {layout : Layout} {names descriptors : List String} {α β : Type}

theorem Lays.pure (value : α) :
    Lays layout names descriptors (Pure.pure value) fun result => result = value where
  grows _ := List.prefix_rfl
  keeps _ sound _ := ⟨sound, rfl⟩

theorem Lays.bind {step : StateM Draft α} {next : α → StateM Draft β} {promise : α → Prop}
    {final : α → β → Prop} (first : Lays layout names descriptors step promise)
    (continues : ∀ value, Lays layout names descriptors (next value) (final value)) :
    Lays layout names descriptors (step >>= next) fun result =>
      ∃ value, promise value ∧ final value result where
  grows draft := (first.grows draft).trans ((continues _).grows _)
  keeps draft sound inside := by
    have later := continues (step.run draft).1
    have between : (step.run draft).2.entries <+: layout.pool :=
      (later.grows (step.run draft).2).trans inside
    obtain ⟨middle, promised⟩ := first.keeps draft sound between
    obtain ⟨after, result⟩ := later.keeps (step.run draft).2 middle inside
    exact ⟨after, (step.run draft).1, promised, result⟩

theorem Lays.imp {step : StateM Draft α} {promise weaker : α → Prop}
    (lays : Lays layout names descriptors step promise)
    (weakens : ∀ value, promise value → weaker value) :
    Lays layout names descriptors step weaker where
  grows := lays.grows
  keeps draft sound inside := by
    obtain ⟨after, promised⟩ := lays.keeps draft sound inside
    exact ⟨after, weakens _ promised⟩

/-- What each member is promised, the members of a list are promised in order. -/
theorem Lays.mapM {step : α → StateM Draft β} {promise : α → β → Prop} :
    ∀ inputs : List α,
      (∀ input ∈ inputs, Lays layout names descriptors (step input) (promise input)) →
      Lays layout names descriptors (inputs.mapM step) fun outputs =>
        List.Forall₂ promise inputs outputs
  | [], _ => (Lays.pure []).imp fun outputs same => by
      rw [same]
      exact .nil
  | input :: rest, each => by
      have tail := Lays.mapM rest fun other member => each other (List.mem_cons_of_mem input member)
      rw [List.mapM_cons]
      refine ((each input List.mem_cons_self).bind fun first =>
        tail.bind fun others => Lays.pure (first :: others)).imp ?_
      rintro outputs ⟨first, head, others, more, rfl⟩
      exact .cons head more

/-! ## Constants -/

/-- A constant that is added stands at the index that is handed out. -/
theorem constantAt?_nextIndex (fits : Layout.slots layout.pool + 1 < 2 ^ 16) {draft : Draft}
    {entry : Entry} (inside : draft.entries ++ [entry] <+: layout.pool) :
    Layout.constantAt? layout.pool draft.nextIndex.toNat = some entry := by
  obtain ⟨after, shape⟩ := inside
  have pool : layout.pool = draft.entries ++ entry :: after := by rw [← shape]; simp
  have bound : Layout.slots draft.entries + 1 < 2 ^ 16 := by
    rw [pool, Layout.slots_append] at fits
    omega
  rw [Draft.nextIndex, UInt16.toNat_ofNat_of_lt' bound, pool, Layout.constantAt?_slots]

theorem lays_push (fits : Layout.slots layout.pool + 1 < 2 ^ 16) {entry : Entry}
    (reason : Stock layout names descriptors entry) :
    Lays layout names descriptors (Draft.push entry) fun index =>
      Layout.constantAt? layout.pool index.toNat = some entry where
  grows draft := List.prefix_append draft.entries [entry]
  keeps draft sound inside := by
    refine ⟨⟨?_, sound.texts, sound.classes⟩, constantAt?_nextIndex fits inside⟩
    intro other member
    rcases List.mem_append.mp member with old | new
    · exact sound.stock other old
    · rw [List.mem_singleton.mp new]
      exact reason

/-- A constant that needs the answer of the step before it. -/
theorem Lays.push_after (fits : Layout.slots layout.pool + 1 < 2 ^ 16) {step : StateM Draft α}
    {promise : α → Prop} (first : Lays layout names descriptors step promise) (entry : α → Entry)
    (reason : ∀ value, promise value → Stock layout names descriptors (entry value)) :
    Lays layout names descriptors (step >>= fun value => Draft.push (entry value)) fun index =>
      ∃ value, promise value ∧
        Layout.constantAt? layout.pool index.toNat = some (entry value) where
  grows draft := (first.grows draft).trans (List.prefix_append _ _)
  keeps draft sound inside := by
    have between : (step.run draft).2.entries <+: layout.pool :=
      (List.prefix_append _ _).trans inside
    obtain ⟨middle, promised⟩ := first.keeps draft sound between
    obtain ⟨after, found⟩ := (lays_push fits (reason _ promised)).keeps _ middle inside
    exact ⟨after, (step.run draft).1, promised, found⟩

theorem lays_long (fits : Layout.slots layout.pool + 1 < 2 ^ 16) (value : UInt64) :
    Lays layout names descriptors (Draft.long value) fun _ => True :=
  (lays_push fits (.long value)).imp fun _ _ => trivial

/-- A table with one more pair still leads where it should. -/
theorem lookup_cons_of {key : String} {index : UInt16} {table : List (String × UInt16)}
    {leads : UInt16 → String → Prop} (here : leads index key)
    (known : ∀ other found, table.lookup other = some found → leads found other) :
    ∀ other found, ((key, index) :: table).lookup other = some found → leads found other := by
  intro other found looked
  rw [List.lookup_cons] at looked
  by_cases same : other = key
  · subst same
    simp only [beq_self_eq_true] at looked
    cases looked
    exact here
  · rw [beq_eq_false_iff_ne.mpr same] at looked
    exact known other found looked

/-- The index of a text leads to it, whether it was there before or not. -/
theorem lays_text (fits : Layout.slots layout.pool + 1 < 2 ^ 16) (value : String)
    (short : Short value) :
    Lays layout names descriptors (Draft.text value) fun index =>
      layout.TextAt .lossy index value where
  grows draft := by
    simp only [Draft.text, StateT.run]
    split
    · exact List.prefix_rfl
    · exact List.prefix_append draft.entries _
  keeps draft sound inside := by
    simp only [Draft.text, StateT.run] at inside ⊢
    cases found : draft.texts.lookup value with
    | some index => exact ⟨sound, sound.texts value index found⟩
    | none =>
        simp only [found] at inside
        have here := Layout.textAt_of_written (constantAt?_nextIndex fits inside)
        refine ⟨⟨?_, lookup_cons_of here sound.texts, sound.classes⟩, here⟩
        intro other member
        rcases List.mem_append.mp member with old | new
        · exact sound.stock other old
        · rw [List.mem_singleton.mp new]
          exact .text value short

/-- A class that is asked for the first time: its name, its constant, and a note of it. -/
theorem run_classRef_of_new {internal : String} {draft : Draft}
    (new : draft.classes.lookup internal = none) :
    (Draft.classRef internal).run draft =
      let added := (Draft.text internal >>= fun name => Draft.push (.classRef name)).run draft
      (added.1, { added.2 with classes := (internal, added.1) :: added.2.classes }) := by
  simp only [Draft.classRef, StateT.run, bind, StateT.bind, get, getThe, MonadStateOf.get,
    StateT.get, pure, new]
  rfl

theorem run_classRef_of_known {internal : String} {draft : Draft} {index : UInt16}
    (known : draft.classes.lookup internal = some index) :
    (Draft.classRef internal).run draft = (index, draft) := by
  simp only [Draft.classRef, StateT.run, bind, StateT.bind, get, getThe, MonadStateOf.get,
    StateT.get, pure, known]
  rfl

/-- The index of a class leads to it, whether it was there before or not. -/
theorem lays_classRef (fits : Layout.slots layout.pool + 1 < 2 ^ 16) {internal : String}
    (short : Short internal) (listed : internal ∈ names) :
    Lays layout names descriptors (Draft.classRef internal) fun index =>
      layout.ClassAt .lossy index internal := by
  have added : Lays layout names descriptors
      (Draft.text internal >>= fun name => Draft.push (.classRef name)) _ :=
    (lays_text fits internal short).push_after fits .classRef fun name here =>
      .classRef name internal listed here
  constructor
  · intro draft
    cases found : draft.classes.lookup internal with
    | some index =>
        rw [run_classRef_of_known found]
    | none =>
        rw [run_classRef_of_new found]
        exact added.grows draft
  · intro draft sound inside
    cases found : draft.classes.lookup internal with
    | some index =>
        rw [run_classRef_of_known found]
        exact ⟨sound, sound.classes internal index found⟩
    | none =>
        rw [run_classRef_of_new found] at inside ⊢
        obtain ⟨after, name, here, constant⟩ := added.keeps draft sound inside
        have leads : layout.ClassAt .lossy _ internal := ⟨name, constant, here⟩
        exact ⟨⟨after.stock, after.texts, lookup_cons_of leads after.classes⟩, leads⟩

/-- A constant that pairs some name with a descriptor. -/
def PairedAs (layout : Layout) (text : String) (index : UInt16) : Prop :=
  ∃ name descriptor, layout.TextAt .lossy descriptor text ∧
    Layout.constantAt? layout.pool index.toNat = some (.nameAndType name descriptor)

theorem lays_nameAndType (fits : Layout.slots layout.pool + 1 < 2 ^ 16)
    {pair : String × String} (short_name : Short pair.1) (short_descriptor : Short pair.2)
    (listed : pair.2 ∈ descriptors) :
    Lays layout names descriptors (Draft.nameAndType pair) (PairedAs layout pair.2) := by
  refine ((lays_text fits pair.1 short_name).bind fun name =>
    (lays_text fits pair.2 short_descriptor).push_after fits (.nameAndType name)
      fun descriptor here => .nameAndType name descriptor pair.2 listed here).imp ?_
  rintro index ⟨name, _, descriptor, here, found⟩
  exact ⟨name, descriptor, here, found⟩

/-! ## Attributes -/

/-- An attribute that gives a signature. -/
def SignedAs (layout : Layout) (value : String) (item : Attribute) : Prop :=
  ∃ index, item.body = .signature index ∧ layout.TextAt .lossy item.name "Signature" ∧
    layout.TextAt .lossy index value

/-- An attribute that declares some exceptions. -/
def DeclaredAs (layout : Layout) (internals : List String) (item : Attribute) : Prop :=
  ∃ indices, item.body = .exceptions indices ∧ layout.TextAt .lossy item.name "Exceptions" ∧
    List.Forall₂ (fun internal index => layout.ClassAt .lossy index internal) internals indices

theorem lays_signature (fits : Layout.slots layout.pool + 1 < 2 ^ 16) {value : String}
    (short : Short value) :
    Lays layout names descriptors (Draft.signature value) (SignedAs layout value) := by
  refine ((lays_text fits "Signature" (by decide)).bind fun name =>
    (lays_text fits value short).bind fun index =>
      Lays.pure (⟨name, .signature index⟩ : Attribute)).imp ?_
  rintro item ⟨name, named, index, here, rfl⟩
  exact ⟨index, rfl, named, here⟩

theorem lays_exceptions (fits : Layout.slots layout.pool + 1 < 2 ^ 16) {internals : List String}
    (short : ∀ internal ∈ internals, Short internal)
    (listed : ∀ internal ∈ internals, internal ∈ names) :
    Lays layout names descriptors (Draft.exceptions internals) (DeclaredAs layout internals) := by
  have indices : Lays layout names descriptors (internals.mapM Draft.classRef) _ :=
    Lays.mapM internals fun internal member =>
      lays_classRef fits (short internal member) (listed internal member)
  refine ((lays_text fits "Exceptions" (by decide)).bind fun name =>
    indices.bind fun indices => Lays.pure (⟨name, .exceptions indices⟩ : Attribute)).imp ?_
  rintro item ⟨name, named, indices, here, rfl⟩
  exact ⟨indices, rfl, named, here⟩

end Steps

end DependencyAudit.ClassFile
