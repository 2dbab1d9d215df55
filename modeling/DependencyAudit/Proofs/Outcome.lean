/-
# DependencyAudit.Proofs.Outcome -- steps that may fail

A computation that may fail is a sequence of steps in `Except`, and its answer is known
from the answers of its steps.  These facts open such sequences: one step and the rest
(`bind_eq_ok`, `bind_eq_error`), and the same step for every member of a list (`mapM_eq_ok`,
`mem_mapM`, `exists_mapM_eq_ok`, `mapM_eq_error_iff`, `mapM_eq_ok_iff_forall₂`), and lists whose
members are related in order (`exists_forall₂`, `exists_left_of_forall₂`).
-/
import Mathlib.Data.List.Forall2


namespace DependencyAudit.Outcome

set_option autoImplicit false

variable {ε α β : Type}

theorem bind_eq_ok {answer : Except ε α} {next : α → Except ε β} {value : β} :
    answer >>= next = .ok value ↔ ∃ first, answer = .ok first ∧ next first = .ok value := by
  cases answer <;> simp [bind, Except.bind]

theorem bind_eq_error {answer : Except ε α} {next : α → Except ε β} {error : ε} :
    answer >>= next = .error error ↔
      answer = .error error ∨ ∃ first, answer = .ok first ∧ next first = .error error := by
  cases answer <;> simp [bind, Except.bind]

theorem map_eq_ok {answer : Except ε α} {change : α → β} {value : β} :
    answer.map change = .ok value ↔ ∃ first, answer = .ok first ∧ change first = value := by
  cases answer <;> simp [Except.map]

theorem mapError_eq_ok {φ : Type} {answer : Except ε α} {rename : ε → φ} {value : α} :
    answer.mapError rename = .ok value ↔ answer = .ok value := by
  cases answer <;> simp [Except.mapError]

theorem toOption_eq_some {answer : Except ε α} {value : α} :
    answer.toOption = some value ↔ answer = .ok value := by
  cases answer <;> simp [Except.toOption]

/-- Every member of a list has its answer, at its place. -/
theorem mapM_eq_ok {step : α → Except ε β} :
    ∀ {inputs : List α} {outputs : List β},
      inputs.mapM step = .ok outputs ↔ inputs.map step = outputs.map .ok
  | [], outputs => by cases outputs <;> simp [pure, Except.pure]
  | input :: rest, outputs => by
      rw [List.mapM_cons, bind_eq_ok]
      constructor
      · rintro ⟨first, answered, more⟩
        obtain ⟨others, recorded, same⟩ := bind_eq_ok.mp more
        cases same
        rw [List.map_cons, answered, mapM_eq_ok.mp recorded, List.map_cons]
      · intro shape
        cases outputs with
        | nil => cases shape
        | cons first others =>
            obtain ⟨answered, recorded⟩ := List.cons.inj shape
            exact ⟨first, answered, bind_eq_ok.mpr ⟨others, mapM_eq_ok.mpr recorded, rfl⟩⟩

/-- The answers are those of the members. -/
theorem mem_mapM {step : α → Except ε β} {inputs : List α} {outputs : List β}
    (answered : inputs.mapM step = .ok outputs) {output : β} :
    output ∈ outputs ↔ ∃ input ∈ inputs, step input = .ok output := by
  have same := congrArg (Except.ok output ∈ ·) (mapM_eq_ok.mp answered)
  simpa [eq_comm] using same

/-- The answer of each member is among the answers. -/
theorem exists_mem_of_mapM {step : α → Except ε β} {inputs : List α} {outputs : List β}
    (answered : inputs.mapM step = .ok outputs) {input : α} (member : input ∈ inputs) :
    ∃ output ∈ outputs, step input = .ok output := by
  have listed : step input ∈ outputs.map (.ok : β → Except ε β) :=
    mapM_eq_ok.mp answered ▸ List.mem_map_of_mem member
  obtain ⟨output, among, same⟩ := List.mem_map.mp listed
  exact ⟨output, among, same.symm⟩

/-- All members have answers together if each has one. -/
theorem exists_mapM_eq_ok {step : α → Except ε β} {inputs : List α} :
    (∃ outputs, inputs.mapM step = .ok outputs) ↔
      ∀ input ∈ inputs, ∃ output, step input = .ok output := by
  constructor
  · rintro ⟨outputs, answered⟩ input member
    obtain ⟨output, _, answer⟩ := exists_mem_of_mapM answered member
    exact ⟨output, answer⟩
  · intro every
    induction inputs with
    | nil => exact ⟨[], rfl⟩
    | cons input rest answered =>
        obtain ⟨first, head⟩ := every input List.mem_cons_self
        obtain ⟨others, tail⟩ := answered fun other member =>
          every other (List.mem_cons_of_mem input member)
        refine ⟨first :: others, mapM_eq_ok.mpr ?_⟩
        rw [List.map_cons, head, mapM_eq_ok.mp tail, List.map_cons]

/-- The first member without an answer is the reason that there are none. -/
theorem mapM_eq_error_iff {step : α → Except ε β} {inputs : List α} {error : ε} :
    inputs.mapM step = .error error ↔
      ∃ before failed after, inputs = before ++ failed :: after ∧
        (∀ input ∈ before, ∃ output, step input = .ok output) ∧ step failed = .error error := by
  induction inputs with
  | nil => simp [pure, Except.pure]
  | cons input rest failing =>
      rw [List.mapM_cons, bind_eq_error]
      constructor
      · rintro (failed | ⟨first, head, more⟩)
        · exact ⟨[], input, rest, rfl, by simp, failed⟩
        · rcases bind_eq_error.mp more with tail | ⟨_, _, impossible⟩
          · obtain ⟨before, failed, after, rfl, answered, blamed⟩ := failing.mp tail
            refine ⟨input :: before, failed, after, rfl, ?_, blamed⟩
            exact List.forall_mem_cons.mpr ⟨⟨first, head⟩, answered⟩
          · cases impossible
      · rintro ⟨before, failed, after, shape, answered, blamed⟩
        cases before with
        | nil =>
            obtain ⟨rfl, rfl⟩ := List.cons.inj shape
            exact .inl blamed
        | cons other more =>
            obtain ⟨rfl, rfl⟩ := List.cons.inj shape
            obtain ⟨⟨first, head⟩, tail⟩ := List.forall_mem_cons.mp answered
            refine .inr ⟨first, head, bind_eq_error.mpr (.inl (failing.mpr ?_))⟩
            exact ⟨more, failed, after, rfl, tail, blamed⟩

/-- The answers stand in the order of the members. -/
theorem mapM_eq_ok_iff_forall₂ {step : α → Except ε β} {inputs : List α} {outputs : List β} :
    inputs.mapM step = .ok outputs ↔
      List.Forall₂ (fun input output => step input = .ok output) inputs outputs := by
  have paired := @List.forall₂_map_left_iff (Except ε β) (Except ε β) α (· = ·) step inputs
    (outputs.map .ok)
  rw [mapM_eq_ok, ← List.forall₂_eq_eq_eq, paired, List.forall₂_map_right_iff]

/-- Where each member is related to something, a list is related to a list. -/
theorem exists_forall₂ {relation : α → β → Prop} :
    ∀ {inputs : List α}, (∀ input ∈ inputs, ∃ output, relation input output) →
      ∃ outputs, List.Forall₂ relation inputs outputs
  | [], _ => ⟨[], .nil⟩
  | input :: rest, every => by
      obtain ⟨first, head⟩ := every input List.mem_cons_self
      obtain ⟨others, tail⟩ := exists_forall₂ fun other member =>
        every other (List.mem_cons_of_mem input member)
      exact ⟨first :: others, .cons head tail⟩

/-- In related lists each member of the second is related to one of the first. -/
theorem exists_left_of_forall₂ {relation : α → β → Prop} {inputs : List α} {outputs : List β}
    (related : List.Forall₂ relation inputs outputs) :
    ∀ output ∈ outputs, ∃ input ∈ inputs, relation input output := by
  induction related with
  | nil => simp
  | cons head _ found =>
      rw [List.forall_mem_cons]
      refine ⟨⟨_, List.mem_cons_self, head⟩, fun output member => ?_⟩
      obtain ⟨input, among, tail⟩ := found output member
      exact ⟨input, List.mem_cons_of_mem _ among, tail⟩

/-- In related lists each member of the first is related to one of the second. -/
theorem exists_right_of_forall₂ {relation : α → β → Prop} {inputs : List α} {outputs : List β}
    (related : List.Forall₂ relation inputs outputs) :
    ∀ input ∈ inputs, ∃ output ∈ outputs, relation input output := by
  have flipped : List.Forall₂ (fun output input => relation input output) outputs inputs :=
    List.Forall₂.flip related
  exact exists_left_of_forall₂ flipped

end DependencyAudit.Outcome
