/-
# DependencyAudit.Proofs.Provenance -- where required dependencies come from

A dependency is required because of a class that the code uses.  The class path gives the
class an owner (`dependencyFor_populate`), the last artifact that holds it, and gives the
owner's identity a dependency, that of the last container with this identity; these two
artifacts need not be the same.  The project is no dependency of its own, and it is left
out twice: as an owner, by its identity, and in the end by its name.

`Provides` puts the two choices together.  `classify_eq_ok_iff` takes an audit apart into
its steps, and `mem_required_iff` says which dependencies are required, both ways.
-/
import DependencyAudit.Classification
import DependencyAudit.Proofs.Inheritance
import DependencyAudit.Proofs.Shards

namespace DependencyAudit

set_option autoImplicit false

namespace Manifest

/-- The name that the project would have as a dependency, if it has a name. -/
def ownDependency? (manifest : Manifest) : Option String :=
  if manifest.project = "" then none else some manifest.own.dependencyName

/-- Some names without the project's own. -/
def othersOf (manifest : Manifest) (names : NameSet) : NameSet :=
  names.filter fun name => decide (manifest.ownDependency? ≠ some name)

@[simp] theorem mem_othersOf {manifest : Manifest} {names : NameSet} {name : String} :
    name ∈ manifest.othersOf names ↔ name ∈ names ∧ manifest.ownDependency? ≠ some name := by
  simp [othersOf]

theorem othersOf_eq {manifest : Manifest} {names : NameSet} :
    manifest.othersOf names =
      if manifest.project = "" then names else names.erase manifest.own.dependencyName := by
  ext name
  split <;> rename_i named <;> simp [ownDependency?, named, eq_comm]

end Manifest

namespace Classification

/-! ## Classes and their dependencies -/

/-- An artifact holds a class. -/
def Holds (files : FileSystem) (className : String) (artifact : ResolvedArtifact) : Prop :=
  ∃ classes, artifact.listing? files = some classes ∧ className ∈ classes

/-- A container of a certain identity. -/
def StandsFor (files : FileSystem) (id : ArtifactId) (artifact : ResolvedArtifact) : Prop :=
  (artifact.container? files).isSome ∧ artifact.id = id

/-- The artifacts of a class path give a class to a dependency: the last of them that holds
the class is not the project, and the last container of its identity stands for the
dependency. -/
def Provides (files : FileSystem) (manifest : Manifest) (artifacts : List ResolvedArtifact)
    (className dependency : String) : Prop :=
  ∃ owner stand, LastMember (Holds files className) artifacts owner ∧
    manifest.isSelf owner.id = false ∧ LastMember (StandsFor files owner.id) artifacts stand ∧
      stand.dependencyName = dependency

/-- What holds a class is a container. -/
theorem Holds.standsFor {files : FileSystem} {className : String} {artifact : ResolvedArtifact}
    (holds : Holds files className artifact) : StandsFor files artifact.id artifact := by
  obtain ⟨classes, listed, _⟩ := holds
  obtain ⟨container, kind, _⟩ := Option.bind_eq_some_iff.mp listed
  exact ⟨by simp [kind], rfl⟩

/-- The dependency that an index finds for a class is the one that the class path provides
it by. -/
theorem dependencyFor_populate {files : FileSystem} {manifest : Manifest}
    {artifacts : List ResolvedArtifact} {index : ClassIndex}
    (populated : Indexing.populate files artifacts = .ok index) {className dependency : String} :
    dependencyFor index manifest className = some dependency ↔
      Provides files manifest artifacts className dependency := by
  constructor
  · intro found
    obtain ⟨id, owned, chosen⟩ := Option.bind_eq_some_iff.mp found
    obtain ⟨owner, last, rfl⟩ := (Indexing.artifactFor_populate populated).mp owned
    split at chosen
    · cases chosen
    · rename_i other
      -- The owner is a container of its identity, so that identity has a dependency.
      obtain ⟨stand, standing⟩ := exists_lastMember_iff.mpr
        ⟨owner, last.mem, Holds.standsFor last.holds⟩
      rw [(Indexing.dependencyOf_populate populated).mpr ⟨stand, standing, rfl⟩] at chosen
      exact ⟨owner, stand, last, by simpa using other, standing, Option.some.inj chosen⟩
  · rintro ⟨owner, stand, last, other, standing, same⟩
    have owned := (Indexing.artifactFor_populate populated).mpr ⟨owner, last, rfl⟩
    have stood := (Indexing.dependencyOf_populate populated).mpr ⟨stand, standing, same⟩
    simp [dependencyFor, owned, other, stood]

theorem mem_dependenciesFor {index : ClassIndex} {manifest : Manifest} {classes : NameSet}
    {dependency : String} :
    dependency ∈ dependenciesFor index manifest classes ↔
      ∃ className ∈ classes, dependencyFor index manifest className = some dependency := by
  simp [dependenciesFor]

/-! ## The steps of an audit -/

theorem withoutSelf_eq {manifest : Manifest} {sets : DependencySets} :
    withoutSelf manifest sets =
      ⟨manifest.othersOf sets.required, manifest.othersOf sets.apiRequired,
        manifest.othersOf sets.implicit, manifest.othersOf sets.unused⟩ := by
  unfold withoutSelf DependencySets.without
  split <;> rename_i named <;> simp [Manifest.othersOf_eq, named]

theorem classPath_eq_ok_iff {settings : Settings} {manifest : Manifest}
    {artifacts : List ResolvedArtifact} :
    classPath settings manifest = .ok artifacts ↔
      (∀ name ∈ settings.configurations, ∃ found, manifest.configuration? name = some found) ∧
        ∃ found, manifest.configuration? settings.classpathConfiguration = some found ∧
          found.artifacts = artifacts := by
  simp only [← Manifest.configuration_eq_ok, ← Outcome.exists_mapM_eq_ok, classPath,
    Outcome.bind_eq_ok, exists_and_right]
  refine and_congr_right fun _ => exists_congr fun found => and_congr_right fun _ => ?_
  exact ⟨Except.ok.inj, congrArg Except.ok⟩

/-- An index is judged by what is declared, if that can be had. -/
theorem judge_eq_ok_iff {settings : Settings} {manifest : Manifest} {references : References}
    {index : ClassIndex} {sets : DependencySets} :
    judge settings manifest references index = .ok sets ↔
      ∃ declared direct, manifest.declared settings.configurations = .ok declared ∧
        manifest.direct settings.configurations = .ok direct ∧
        sets = withoutSelf manifest (findings settings manifest
          (dependenciesFor index manifest references.used)
          (dependenciesFor index manifest references.api) declared direct) := by
  simp only [judge, Outcome.bind_eq_ok, exists_and_left]
  refine exists_congr fun declared => and_congr_right fun _ => exists_congr fun direct =>
    and_congr_right fun _ => ?_
  exact ⟨fun same => (Except.ok.inj same).symm, fun same => congrArg Except.ok same.symm⟩

/-- An audit finds something exactly if the class path is there and can be indexed, and all
declarations can be had; the findings are then those of its steps. -/
theorem classify_eq_ok_iff {settings : Settings} {files : FileSystem} {manifest : Manifest}
    {references : References} {sets : DependencySets} :
    classify settings files manifest references = .ok sets ↔
      ∃ artifacts index declared direct, classPath settings manifest = .ok artifacts ∧
        Indexing.populate files artifacts = .ok index ∧
        manifest.declared settings.configurations = .ok declared ∧
        manifest.direct settings.configurations = .ok direct ∧
        sets = withoutSelf manifest (findings settings manifest
          (dependenciesFor index manifest references.used)
          (dependenciesFor index manifest references.api) declared direct) := by
  simp only [classify, Outcome.bind_eq_ok, judge_eq_ok_iff, exists_and_left]

/-! ## Required dependencies -/

theorem mem_dependenciesFor_populate {files : FileSystem} {manifest : Manifest}
    {artifacts : List ResolvedArtifact} {index : ClassIndex}
    (populated : Indexing.populate files artifacts = .ok index) {classes : NameSet}
    {dependency : String} :
    dependency ∈ dependenciesFor index manifest classes ↔
      ∃ className ∈ classes, Provides files manifest artifacts className dependency := by
  simp only [mem_dependenciesFor, dependencyFor_populate populated]

/-- **What is required, both ways.**  The required dependencies are those that the class path
provides some used class by, the project's own aside; those of the public surface are the
required ones that it provides some class of the surface by. -/
theorem mem_required_iff {settings : Settings} {files : FileSystem} {manifest : Manifest}
    {references : References} {sets : DependencySets}
    (classified : classify settings files manifest references = .ok sets) :
    ∃ found, manifest.configuration? settings.classpathConfiguration = some found ∧
      (∀ dependency, dependency ∈ sets.required ↔
        manifest.ownDependency? ≠ some dependency ∧ ∃ className ∈ references.used,
          Provides files manifest found.artifacts className dependency) ∧
      ∀ dependency, dependency ∈ sets.apiRequired ↔
        dependency ∈ sets.required ∧ ∃ className ∈ references.api,
          Provides files manifest found.artifacts className dependency := by
  obtain ⟨artifacts, index, declared, direct, path, populated, _, _, rfl⟩ :=
    classify_eq_ok_iff.mp classified
  obtain ⟨_, found, present, rfl⟩ := classPath_eq_ok_iff.mp path
  refine ⟨found, present, fun dependency => ?_, fun dependency => ?_⟩
  · simp only [withoutSelf_eq, findings, Manifest.mem_othersOf,
      mem_dependenciesFor_populate populated]
    exact and_comm
  · simp only [withoutSelf_eq, findings, Manifest.mem_othersOf, NameSet.mem_inter,
      mem_dependenciesFor_populate populated]
    exact ⟨fun ⟨⟨api, used⟩, other⟩ => ⟨⟨used, other⟩, api⟩,
      fun ⟨⟨used, other⟩, api⟩ => ⟨⟨api, used⟩, other⟩⟩

namespace Example

/-- A directory that holds class files and nothing else. -/
def directory (name : String) (classFiles : List String) : List (Location × FileEntry) :=
  ([name], .directory) :: classFiles.map fun file => ([name, file], .file ⟨[], 0⟩)

/-- Two libraries hold the class `C`, and the project's own output is on the class path. -/
def files : FileSystem where
  entries := directory "a" ["C.class"] ++ directory "b" ["C.class"] ++ directory "c" ["D.class"] ++
    directory "own" ["E.class"]
  workingDirectory := []
  clock := 0

/-- The identity of the last holder of `C` comes again, for another dependency. -/
def classPath : Configuration where
  name := "compileClasspath"
  extendsFrom := ["implementation"]
  dependencies := []
  artifacts := [
    ⟨.module "g" "a" (some "1"), ⟨"a"⟩, none⟩, ⟨.module "g" "b" none, ⟨"b"⟩, none⟩,
    ⟨.module "g" "b" none, ⟨"c"⟩, some "g:c:2"⟩, ⟨.project "app", ⟨"own"⟩, none⟩,
    ⟨.module "g" "b" none, ⟨"lib.aar"⟩, some "g:e"⟩]

def manifest : Manifest where
  project := ":app"
  configurations := [⟨"implementation", [], ["g:a:1", "project :app"], []⟩, classPath]

def references : References := ⟨.ofList ["C", "E", "java.lang.String"], .ofList ["C"]⟩

def sets : DependencySets := ⟨.ofList ["g:c"], .ofList ["g:c"], .ofList ["g:c"], .ofList ["g:a"]⟩

theorem classified : classify Settings.default files manifest references = .ok sets := by
  have declared : manifest.declared Settings.default.configurations =
      .ok (.ofList ["g:a", "project :app"]) := by cbv
  refine Outcome.toOption_eq_some.mp ?_
  simp only [classify, judge, declared]
  decide +kernel

end Example

/-- The owner of `C` is an artifact of `g:b`, and the dependency is that of another one. -/
theorem mem_required_iff_of_shadowing :
    ∃ found, Example.manifest.configuration? "compileClasspath" = some found ∧
      (∀ dependency, dependency ∈ NameSet.ofList ["g:c"] ↔
        Example.manifest.ownDependency? ≠ some dependency ∧
          ∃ className ∈ NameSet.ofList ["C", "E", "java.lang.String"],
            Provides Example.files Example.manifest found.artifacts className dependency) ∧
      ∀ dependency, dependency ∈ NameSet.ofList ["g:c"] ↔
        dependency ∈ NameSet.ofList ["g:c"] ∧ ∃ className ∈ NameSet.ofList ["C"],
          Provides Example.files Example.manifest found.artifacts className dependency :=
  mem_required_iff Example.classified

end Classification

end DependencyAudit
