/-
# DependencyAudit.Classification -- used, undeclared and unused dependencies

A dependency is required if the artifact that provides some used class stands for
it.  Of the required ones those that nothing declares are implicit, and of those that
the audited configurations declare themselves the ones that are not required are
unused.  Dependencies of source-only configurations and exempt ones are neither, and
the project itself is no dependency of its own.

`judge` draws these conclusions from an index, so that what is implicit or required
by the surface is required (`implicit_subset_required`,
`apiRequired_subset_required`); `classify` makes the index first, and `classifyWith`
makes it with a cache.
-/
import DependencyAudit.Indexing
import DependencyAudit.Manifest.Basic
import DependencyAudit.References.Basic
import DependencyAudit.Settings

namespace DependencyAudit

set_option autoImplicit false

/-- What an audit finds, by the names that reports use. -/
structure DependencySets where
  /-- What the code refers to. -/
  required : NameSet
  /-- What the public surface refers to. -/
  apiRequired : NameSet
  /-- Required and not declared. -/
  implicit : NameSet
  /-- Declared and not required. -/
  unused : NameSet
deriving DecidableEq

namespace DependencySets

/-- Whether the build needs a change. -/
def hasFindings (sets : DependencySets) : Bool :=
  !sets.implicit.isEmpty || !sets.unused.isEmpty

/-- Without a dependency. -/
def without (sets : DependencySets) (name : String) : DependencySets :=
  ⟨sets.required.erase name, sets.apiRequired.erase name, sets.implicit.erase name,
    sets.unused.erase name⟩

end DependencySets

namespace Classification

/-- The dependency whose artifact provides a class, unless the project does. -/
def dependencyFor (index : ClassIndex) (manifest : Manifest) (className : String) :
    Option String := do
  let artifact ← index.artifactFor className
  if manifest.isSelf artifact then none
  else (index.dependencyOf artifact).getD artifact.dependencyName

/-- The dependencies whose artifacts provide some classes. -/
def dependenciesFor (index : ClassIndex) (manifest : Manifest) (classes : NameSet) : NameSet :=
  .ofList (classes.toList.filterMap (dependencyFor index manifest))

/-- The dependencies of those source-only configurations that there are. -/
def sourceOnly (settings : Settings) (manifest : Manifest) : NameSet :=
  NameSet.unions
    ((settings.sourceOnlyConfigurations.filterMap manifest.configuration?).map
      Configuration.declarations)

/-- What follows from the required and the declared dependencies. -/
def findings (settings : Settings) (manifest : Manifest)
    (required apiRequired declared direct : NameSet) : DependencySets :=
  let sourceOnly := sourceOnly settings manifest
  { required
    apiRequired := apiRequired.inter required
    implicit := ((required.diff declared).diff sourceOnly).diff settings.implicitExemptions
    unused := (((declared.diff required).inter direct).diff sourceOnly).diff
      settings.unusedExemptions }

/-- Without the project itself, if it has a name. -/
def withoutSelf (manifest : Manifest) (sets : DependencySets) : DependencySets :=
  if manifest.project = "" then sets else sets.without manifest.own.dependencyName

/-- What follows from an index of the class path. -/
def judge (settings : Settings) (manifest : Manifest) (references : References)
    (index : ClassIndex) : Except AuditError DependencySets := do
  let declared ← manifest.declared settings.configurations
  let direct ← manifest.direct settings.configurations
  let sets := findings settings manifest (dependenciesFor index manifest references.used)
    (dependenciesFor index manifest references.api) declared direct
  return withoutSelf manifest sets

/-- The artifacts of the class path, once all audited configurations are found. -/
def classPath (settings : Settings) (manifest : Manifest) :
    Except AuditError (List ResolvedArtifact) := do
  let _ ← settings.configurations.mapM manifest.configuration
  return (← manifest.configuration settings.classpathConfiguration).artifacts

/-- What an audit finds. -/
def classify (settings : Settings) (files : FileSystem) (manifest : Manifest)
    (references : References) : Except AuditError DependencySets := do
  let artifacts ← classPath settings manifest
  let index ← Indexing.populate files artifacts
  judge settings manifest references index

/-- What an audit finds with a cache, and the cache after it. -/
def classifyWith (cache : Cache) (settings : Settings) (files : FileSystem) (manifest : Manifest)
    (references : References) : Cache × Except AuditError DependencySets :=
  match classPath settings manifest with
  | .error error => (cache, .error error)
  | .ok artifacts =>
      let (kept, indexed) := Indexing.populateWith cache files artifacts
      (kept, indexed.bind (judge settings manifest references))

/-! ## Facts -/

theorem implicit_subset_required {settings : Settings} {manifest : Manifest}
    {required apiRequired declared direct : NameSet} {name : String}
    (found : name ∈ (findings settings manifest required apiRequired declared direct).implicit) :
    name ∈ required := by
  simp only [findings, NameSet.mem_diff] at found
  exact found.1.1.1

theorem apiRequired_subset_required {settings : Settings} {manifest : Manifest}
    {required apiRequired declared direct : NameSet} {name : String}
    (found : name ∈ (findings settings manifest required apiRequired declared direct).apiRequired) :
    name ∈ required := by
  simp only [findings, NameSet.mem_inter] at found
  exact found.2

end Classification

end DependencyAudit
