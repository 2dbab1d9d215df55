/-
# DependencyAudit.Proofs.DescentBudgets -- more budget, the same scan

A scan that comes to an outcome with some budget comes to it with every larger one, and remembers
the same (`grants_signature`, `grants_descriptor`).  So the budget only says how long to wait: it
is no part of what is found, and a scan that ends with some budget ends as it would without any.

The functions for types call one another, so what is granted to them is shown for all of them at
once, by induction on the smaller budget (`grantsTypes`), and passes on to what is put together
from them (`Grants.bind`).
-/
import DependencyAudit.TypeText.Descent

namespace DependencyAudit.TypeText.Descent

set_option autoImplicit false

/-! ## Scans that go on from where others stop -/

/-- Where one scan has an outcome, the other has the same. -/
def Grants {α : Type} (less more : Scanner α) : Prop :=
  ∀ memory result, less memory = some result → more memory = some result

section Rules

variable {α β : Type} {less more : Scanner α}

theorem Grants.refl (scanner : Scanner α) : Grants scanner scanner :=
  fun _ _ ran => ran

theorem grants_spent (scanner : Scanner α) : Grants spent scanner :=
  nofun

theorem Grants.bind {next later : α → Scanner β} (first : Grants less more)
    (second : ∀ value, Grants (next value) (later value)) :
    Grants (less >>= next) (more >>= later) := by
  intro memory result ran
  change (less memory).bind _ = _ at ran
  change (more memory).bind _ = _
  obtain ⟨⟨outcome, after⟩, ran', rest⟩ := Option.bind_eq_some_iff.mp ran
  rw [first memory _ ran', Option.bind_some]
  cases outcome with
  | ok value => exact second value after result rest
  | error fault => exact rest

/-- After the same scan. -/
theorem Grants.after {next later : α → Scanner β} (scanner : Scanner α)
    (second : ∀ value, Grants (next value) (later value)) :
    Grants (scanner >>= next) (scanner >>= later) :=
  (Grants.refl scanner).bind second

/-- Before the same scan. -/
theorem Grants.before {next : α → Scanner β} (first : Grants less more) :
    Grants (less >>= next) (more >>= next) :=
  first.bind fun value => Grants.refl (next value)

theorem Grants.ite {condition : Prop} [Decidable condition] {less' more' : Scanner α}
    (holds : Grants less more) (fails : Grants less' more') :
    Grants (if condition then less else less') (if condition then more else more') := by
  split
  · exact holds
  · exact fails

theorem Grants.turning (grants : Grants less more) : Grants (turning less) (turning more) :=
  Grants.after position fun _ => grants.before

theorem Grants.calling {less more : Scanner Unit} (grants : Grants less more) :
    Grants (calling less) (calling more) :=
  Grants.after position fun _ => grants.before

end Rules

/-! ## Each function -/

variable {text : String} {less more : Nat}

/-- The larger of two budgets that is not spent at once leaves more than the smaller one. -/
theorem exists_budget (larger : less + 1 ≤ more) : ∃ rest, more = rest + 1 ∧ less ≤ rest :=
  ⟨more - 1, by omega, by omega⟩

theorem grants_skip (passes : UInt8 → Bool) (larger : less ≤ more) :
    Grants (skip text passes less) (skip text passes more) := by
  induction less generalizing more with
  | zero => exact grants_spent _
  | succ less later =>
      obtain ⟨more, rfl, fits⟩ := exists_budget larger
      rw [skip, skip]
      refine Grants.after _ fun next => Grants.ite ?_ (Grants.refl _)
      exact Grants.after _ fun _ => later fits

theorem grants_identifier (larger : less ≤ more) :
    Grants (identifier text less) (identifier text more) :=
  Grants.after position fun _ => (grants_skip _ larger).before

/-- What a larger budget grants to the functions for types. -/
structure GrantsTypes (text : String) (less more : Nat) : Prop where
  javaType : Grants (javaType text less) (javaType text more)
  referenceType : Grants (referenceType text less) (referenceType text more)
  classType : Grants (classType text less) (classType text more)
  classTail : ∀ name, Grants (classTail text less name) (classTail text more name)
  typeArguments : Grants (typeArguments text less) (typeArguments text more)
  arguments : Grants (arguments text less) (arguments text more)

section Types

variable (later : GrantsTypes text less more)
include later

theorem grants_javaType : Grants (javaType text (less + 1)) (javaType text (more + 1)) := by
  rw [javaType, javaType]
  exact Grants.calling (Grants.after _ fun next => Grants.ite (Grants.refl _) later.referenceType)

theorem grants_referenceType (larger : less ≤ more) :
    Grants (referenceType text (less + 1)) (referenceType text (more + 1)) := by
  rw [referenceType, referenceType]
  refine Grants.calling (Grants.after _ fun next => Grants.ite later.classType ?_)
  refine Grants.ite (grants_skip _ larger).before (Grants.ite ?_ (Grants.refl _))
  exact Grants.after _ fun _ => later.javaType

theorem grants_classType (larger : less ≤ more) :
    Grants (classType text (less + 1)) (classType text (more + 1)) := by
  rw [classType, classType]
  refine Grants.calling (Grants.after _ fun _ => ?_)
  exact (grants_identifier larger).bind fun outermost => (later.classTail outermost).before

theorem grants_classTail (larger : less ≤ more) (name : String) :
    Grants (classTail text (less + 1) name) (classTail text (more + 1) name) := by
  rw [classTail, classTail]
  refine Grants.after _ fun next => Grants.ite ?_ (Grants.ite ?_ (Grants.refl _))
  · exact later.typeArguments.turning.bind fun _ => later.classTail name
  · have inner : Grants (do advance; identifier text less) (do advance; identifier text more) :=
      Grants.after _ fun _ => grants_identifier larger
    exact inner.turning.bind fun inner => later.classTail _

theorem grants_typeArguments :
    Grants (typeArguments text (less + 1)) (typeArguments text (more + 1)) := by
  rw [typeArguments, typeArguments]
  exact Grants.calling (Grants.after _ fun _ => later.arguments.before)

theorem grants_arguments : Grants (arguments text (less + 1)) (arguments text (more + 1)) := by
  rw [arguments, arguments]
  refine Grants.after _ fun next => Grants.ite (Grants.refl _) ?_
  refine Grants.bind (Grants.turning ?_) fun _ => later.arguments
  refine Grants.ite (Grants.refl _) (Grants.ite ?_ ?_)
  · exact Grants.after _ fun _ => later.referenceType
  · exact Grants.ite later.referenceType (Grants.refl _)

end Types

theorem grantsTypes (larger : less ≤ more) : GrantsTypes text less more := by
  -- Each function calls the others with one unit less, whichever of them it is.
  induction less generalizing more with
  | zero =>
      exact {
        javaType := by rw [javaType]; exact grants_spent _
        referenceType := by rw [referenceType]; exact grants_spent _
        classType := by rw [classType]; exact grants_spent _
        classTail := fun name => by rw [classTail]; exact grants_spent _
        typeArguments := by rw [typeArguments]; exact grants_spent _
        arguments := by rw [arguments]; exact grants_spent _ }
  | succ less later =>
      obtain ⟨more, rfl, fits⟩ := exists_budget larger
      exact {
        javaType := grants_javaType (later fits)
        referenceType := grants_referenceType (later fits) fits
        classType := grants_classType (later fits) fits
        classTail := grants_classTail (later fits) fits
        typeArguments := grants_typeArguments (later fits)
        arguments := grants_arguments (later fits) }

theorem grants_bounds (larger : less ≤ more) : Grants (bounds text less) (bounds text more) := by
  induction less generalizing more with
  | zero => exact grants_spent _
  | succ less later =>
      obtain ⟨more, rfl, fits⟩ := exists_budget larger
      rw [bounds, bounds]
      refine Grants.after _ fun next => Grants.ite ?_ (Grants.refl _)
      refine Grants.bind (Grants.turning ?_) fun _ => later fits
      refine Grants.after _ fun _ => Grants.after _ fun next => ?_
      exact Grants.ite (grantsTypes fits).referenceType (Grants.refl _)

theorem grants_parameters (larger : less ≤ more) :
    Grants (parameters text less) (parameters text more) := by
  induction less generalizing more with
  | zero => exact grants_spent _
  | succ less later =>
      obtain ⟨more, rfl, fits⟩ := exists_budget larger
      rw [parameters, parameters]
      refine Grants.after _ fun next => Grants.ite (Grants.refl _) ?_
      refine Grants.bind (Grants.turning ?_) fun _ => later fits
      refine (grants_skip _ fits).bind fun _ => Grants.after _ fun next => ?_
      exact Grants.ite (Grants.refl _) (grants_bounds fits)

theorem grants_types (larger : less ≤ more) : Grants (types text less) (types text more) := by
  induction less generalizing more with
  | zero => exact grants_spent _
  | succ less later =>
      obtain ⟨more, rfl, fits⟩ := exists_budget larger
      rw [types, types]
      refine Grants.after _ fun next => Grants.ite (Grants.refl _) ?_
      refine Grants.bind (Grants.turning ?_) fun _ => later fits
      exact Grants.ite (Grants.refl _) (grantsTypes fits).javaType

theorem grants_signature (larger : less ≤ more) :
    Grants (signature text less) (signature text more) := by
  have parameterized : Grants (typeParameters text less) (typeParameters text more) :=
    Grants.calling (Grants.after _ fun _ => (grants_parameters larger).before)
  refine Grants.after _ fun next => Grants.ite ?_ (grants_types larger)
  exact parameterized.bind fun _ => grants_types larger

theorem grants_descriptor (larger : less ≤ more) :
    Grants (descriptor text less) (descriptor text more) := by
  induction less generalizing more with
  | zero => exact grants_spent _
  | succ less later =>
      obtain ⟨more, rfl, fits⟩ := exists_budget larger
      rw [descriptor, descriptor]
      refine Grants.after _ fun next => Grants.ite (Grants.refl _) (Grants.ite ?_ ?_)
      · refine Grants.after _ fun start => Grants.after _ fun octets => ?_
        split
        · exact Grants.refl _
        · exact Grants.after _ fun _ => later fits
      · exact Grants.after _ fun _ => later fits

end DependencyAudit.TypeText.Descent
