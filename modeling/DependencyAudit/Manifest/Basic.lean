/-
# DependencyAudit.Manifest.Basic -- what a build knows about its dependencies

A manifest lists the configurations of a project: which dependencies each declares,
which other configurations it inherits declarations from, and which artifacts it
resolves to.  Of several configurations of one name the first counts.

`declared` gathers what some configurations declare, with all they inherit; it
visits each name once, so that configurations may inherit from one another in
circles, and each visit leaves fewer to visit (`remaining_lt`).  `direct` leaves
out what is inherited.
-/
import DependencyAudit.Artifact.Resolved
import DependencyAudit.AuditError
import DependencyAudit.NameSet

namespace DependencyAudit

set_option autoImplicit false

/-- A scope of dependencies. -/
structure Configuration where
  name : String
  /-- The configurations whose declarations it inherits. -/
  extendsFrom : List String
  /-- The dependencies that it declares itself. -/
  dependencies : List String
  /-- All that it resolves to. -/
  artifacts : List ResolvedArtifact
deriving Repr, DecidableEq

/-- What a build knows about the dependencies of a project. -/
structure Manifest where
  project : String
  configurations : List Configuration
deriving Repr, DecidableEq

namespace Configuration

/-- The dependencies that the configuration declares itself, as reports spell
them. -/
def declarations (configuration : Configuration) : NameSet :=
  NameSet.ofList (configuration.dependencies.map Dependency.normalize)

end Configuration

namespace Manifest

/-! ## Configurations -/

/-- The configuration of a name. -/
def configuration? (manifest : Manifest) (name : String) : Option Configuration :=
  manifest.configurations.find? (·.name = name)

/-- The configuration of a name, which must be there. -/
def configuration (manifest : Manifest) (name : String) : Except AuditError Configuration :=
  match manifest.configuration? name with
  | some found => .ok found
  | none => .error (.configuration name)

/-- The names of configurations that are not visited yet. -/
def remaining (manifest : Manifest) (visited : List String) : List String :=
  (manifest.configurations.map Configuration.name).filter (· ∉ visited)

theorem configuration_name {manifest : Manifest} {name : String} {found : Configuration}
    (present : manifest.configuration? name = some found) : found.name = name := by
  simpa using List.find?_some present

theorem length_filter_notMem_lt {names visited : List String} {name : String}
    (listed : name ∈ names) (fresh : name ∉ visited) :
    (names.filter (· ∉ name :: visited)).length < (names.filter (· ∉ visited)).length := by
  have split : names.filter (· ∉ name :: visited) =
      (names.filter (· ∉ visited)).filter (· ≠ name) := by
    rw [List.filter_filter]
    congr 1
    funext other
    simp [not_or]
  rw [split]
  refine List.length_filter_lt_length_iff_exists.mpr ⟨name, ?_, by simp⟩
  simp [List.mem_filter, listed, fresh]

/-- A visit to a configuration leaves fewer to visit. -/
theorem remaining_lt {manifest : Manifest} {visited : List String} {name : String}
    {found : Configuration} (present : manifest.configuration? name = some found)
    (fresh : name ∉ visited) :
    (manifest.remaining (name :: visited)).length < (manifest.remaining visited).length := by
  refine length_filter_notMem_lt ?_ fresh
  rw [← configuration_name present]
  exact List.mem_map_of_mem (List.mem_of_find?_eq_some present)

/-! ## Declarations -/

/-- Gathers what the configurations on a stack declare and inherit. -/
def declaredFrom (manifest : Manifest) (visited : List String) (declared : NameSet) :
    List String → Except AuditError NameSet
  | [] => .ok declared
  | name :: stack =>
      if fresh : name ∈ visited then declaredFrom manifest visited declared stack
      else match present : manifest.configuration? name with
        | none => .error (.configuration name)
        | some found =>
            have _fewer := remaining_lt present fresh
            declaredFrom manifest (name :: visited) (declared.union found.declarations)
              (found.extendsFrom.reverse ++ stack)
termination_by stack => ((manifest.remaining visited).length, stack.length)

/-- The dependencies that some configurations declare or inherit; of several
unknown names the one met first, from the last of the names on, is reported. -/
def declared (manifest : Manifest) (names : List String) : Except AuditError NameSet :=
  declaredFrom manifest [] .empty names.reverse

/-- The dependencies that some configurations declare themselves. -/
def direct (manifest : Manifest) (names : List String) : Except AuditError NameSet := do
  let configurations ← names.mapM manifest.configuration
  return NameSet.unions (configurations.map Configuration.declarations)

/-! ## The project -/

/-- The project as an artifact. -/
def own (manifest : Manifest) : ArtifactId :=
  .ofProjectName manifest.project.toList

/-- Whether an artifact is the project's own output. -/
def isSelf (manifest : Manifest) (id : ArtifactId) : Bool :=
  manifest.project ≠ "" && id = manifest.own

end Manifest

end DependencyAudit
