/-
# DependencyAudit.Report.Basic -- what an audit reports

A report lists the dependencies that are required, required by the public surface,
implicit and unused, each list in order and without repetitions, so that it depends
on the names in its lists only (`ofLists_congr`).  `failures` says of each finding
how to mend the build file, and says nothing exactly if there are no findings
(`failures_eq_nil_iff`).
-/
import DependencyAudit.Artifact.Dependency
import DependencyAudit.Classification
import DependencyAudit.Document.Basic

namespace DependencyAudit

set_option autoImplicit false

/-- The dependencies that an audit reports on. -/
structure Report where
  required : NameSet
  apiRequired : NameSet
  implicit : NameSet
  unused : NameSet
deriving DecidableEq

namespace Report

/-- The report on lists of names. -/
def ofLists (required apiRequired implicit unused : List String) : Report :=
  ⟨.ofList required, .ofList apiRequired, .ofList implicit, .ofList unused⟩

/-- The report on what an audit has found. -/
def ofSets (sets : DependencySets) : Report :=
  ⟨sets.required, sets.apiRequired, sets.implicit, sets.unused⟩

/-- Whether the build needs a change. -/
def hasFindings (report : Report) : Bool :=
  !report.implicit.isEmpty || !report.unused.isEmpty

/-! ## Failures -/

def implicitFailure (dependency : String) : String :=
  "Implicit dependency " ++ dependency ++ ": add '" ++ Dependency.suggestion dependency ++ "'"

def unusedFailure (dependency : String) : String :=
  "Unused dependency " ++ dependency ++ ": remove '" ++ Dependency.suggestion dependency ++ "'"

/-- How to mend the build file, finding by finding. -/
def failures (report : Report) : List String :=
  report.implicit.toList.map implicitFailure ++ report.unused.toList.map unusedFailure

/-! ## Documents -/

/-- The keys of the lists, in order. -/
def requiredKey : String := "allDependencies"
def apiRequiredKey : String := "apiDependencies"
def implicitKey : String := "implicitDependencies"
def unusedKey : String := "unusedDependencies"

/-- The names of the lists; the first has an older one too. -/
def keys : List (List String) :=
  [[requiredKey, "requiredDeps"], [apiRequiredKey], [implicitKey], [unusedKey]]

/-- The names that a document lists. -/
def namesOfDocument (document : Document) : Decoder NameSet := do
  return .ofList (← document.texts)

/-- The report that a document gives; lists that are left out are empty. -/
def ofDocument (document : Document) : Decoder Report := do
  match ← document.fields keys with
  | [required, apiRequired, implicit, unused] =>
      return {
        required := ← Document.fieldOr .empty namesOfDocument required
        apiRequired := ← Document.fieldOr .empty namesOfDocument apiRequired
        implicit := ← Document.fieldOr .empty namesOfDocument implicit
        unused := ← Document.fieldOr .empty namesOfDocument unused }
  | _ => Decoder.refuse

/-! ## Facts -/

theorem ofSets_hasFindings (sets : DependencySets) :
    (ofSets sets).hasFindings = sets.hasFindings := rfl

/-- Neither order nor repetitions in the lists matter. -/
theorem ofLists_congr
    {required required' apiRequired apiRequired' implicit implicit' unused unused' : List String}
    (same : ∀ name, name ∈ required ↔ name ∈ required')
    (same_api : ∀ name, name ∈ apiRequired ↔ name ∈ apiRequired')
    (same_implicit : ∀ name, name ∈ implicit ↔ name ∈ implicit')
    (same_unused : ∀ name, name ∈ unused ↔ name ∈ unused') :
    ofLists required apiRequired implicit unused =
      ofLists required' apiRequired' implicit' unused' := by
  simp only [ofLists, mk.injEq]
  refine ⟨?_, ?_, ?_, ?_⟩ <;> ext name <;> simp only [NameSet.mem_ofList]
  · exact same name
  · exact same_api name
  · exact same_implicit name
  · exact same_unused name

theorem hasFindings_iff (report : Report) :
    report.hasFindings = true ↔ ∃ name, name ∈ report.implicit ∨ name ∈ report.unused := by
  have nonempty : ∀ names : NameSet, (!names.isEmpty) = true ↔ ∃ name, name ∈ names := by
    intro names
    rw [NameSet.isEmpty, Bool.not_eq_true', List.isEmpty_eq_false_iff_exists_mem]
    rfl
  rw [hasFindings, Bool.or_eq_true, nonempty, nonempty, exists_or]

/-- There are failures exactly if there are findings. -/
theorem failures_eq_nil_iff (report : Report) :
    report.failures = [] ↔ report.hasFindings = false := by
  simp [failures, hasFindings, NameSet.isEmpty]

end Report

end DependencyAudit
