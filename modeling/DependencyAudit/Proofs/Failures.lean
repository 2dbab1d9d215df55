/-
# DependencyAudit.Proofs.Failures -- why an audit fails

An audit looks for four things, one after the other: the audited configurations, the one of the
class path, the classes of every container on it, and all that the audited configurations
extend, however far.  It fails exactly if one of them is wanting (`wants_iff_fails`), and the
error is about the first of them in this order (`classify_eq_error_iff`).

Nothing else can make it fail.  Two audits that look for the same things (`Alike`) fail
together and for the same reason (`fails_exactly`), whatever else their manifests and settings
say: source-only configurations may be missing, and so may what the class path extends, if no
audited configuration leads there; artifacts that are no containers may be missing or broken,
and those of other configurations are never looked at.
-/
import DependencyAudit.Proofs.ClassPathOrder
import DependencyAudit.Proofs.Closure

namespace DependencyAudit

set_option autoImplicit false

/-! ## Known names -/

namespace Manifest

/-- Some configuration has a name. -/
def Knows (manifest : Manifest) (name : String) : Prop :=
  ∃ configuration ∈ manifest.configurations, configuration.name = name

section Known

variable {manifest changed : Manifest} {name : String} {error : AuditError}

theorem knows_iff : manifest.Knows name ↔ ∃ found, manifest.configuration? name = some found :=
  configuration?_eq_some_iff_named.symm

theorem not_knows_iff : ¬ manifest.Knows name ↔ manifest.configuration? name = none := by
  rw [knows_iff, ← Option.isSome_iff_exists, Option.not_isSome_iff_eq_none]

theorem configuration_eq_error_iff :
    manifest.configuration name = .error error ↔
      ¬ manifest.Knows name ∧ error = .configuration name := by
  rw [not_knows_iff, configuration]
  cases manifest.configuration? name <;> simp [eq_comm]

/-- A name leads to the same extensions in two manifests, or to nothing in both. -/
def ExtendsAlike (manifest changed : Manifest) (name : String) : Prop :=
  (changed.configuration? name).map Configuration.extendsFrom =
    (manifest.configuration? name).map Configuration.extendsFrom

theorem ExtendsAlike.knows_iff (alike : ExtendsAlike manifest changed name) :
    changed.Knows name ↔ manifest.Knows name := by
  have same := congrArg Option.isSome alike
  rw [Option.isSome_map, Option.isSome_map] at same
  rw [Manifest.knows_iff, Manifest.knows_iff, ← Option.isSome_iff_exists,
    ← Option.isSome_iff_exists, same]

/-- Where reachable names extend the same, a walk comes to the same unknown name, whatever is
declared on its way. -/
theorem declaredFrom_eq_error_congr {visited : List String} {declared : NameSet}
    {stack : List String}
    (alike : ∀ name, manifest.Reachable stack name → ExtendsAlike manifest changed name) :
    ∀ others, changed.declaredFrom visited others stack = .error error ↔
      manifest.declaredFrom visited declared stack = .error error := by
  fun_induction declaredFrom manifest visited declared stack with
  | case1 visited declared => simp [declaredFrom]
  | case2 visited declared name stack seen walk =>
      intro others
      rw [declaredFrom, dif_pos seen]
      exact walk (fun other reached =>
        alike other (reached.mono fun _ => List.mem_cons_of_mem name)) others
  | case3 visited declared name stack fresh absent =>
      intro others
      have missing : changed.configuration? name = none := by
        have same := alike name (.listed List.mem_cons_self)
        rw [ExtendsAlike, absent] at same
        exact Option.map_eq_none_iff.mp same
      rw [declaredFrom, dif_neg fresh]
      split
      · rfl
      · rename_i found present
        cases missing.symm.trans present
  | case4 visited declared name stack fresh found present _ walk =>
      intro others
      have same := alike name (.listed List.mem_cons_self)
      rw [ExtendsAlike, present] at same
      obtain ⟨other, there, extended⟩ := Option.map_eq_some_iff.mp same
      rw [declaredFrom, dif_neg fresh]
      split
      · rename_i missing
        cases there.symm.trans missing
      · rename_i met present'
        cases there.symm.trans present'
        rw [extended]
        exact walk (fun next reached => alike next (reachable_of_extension present reached)) _

theorem declared_eq_error_congr {names : List String}
    (alike : ∀ name, manifest.Reachable names name → ExtendsAlike manifest changed name) :
    changed.declared names = .error error ↔ manifest.declared names = .error error :=
  declaredFrom_eq_error_congr (fun name reached => alike name (reachable_reverse.mp reached)) _

end Known

end Manifest

namespace Classification

open Indexing (Unlistable)

section Failing

variable {settings : Settings} {files : FileSystem} {manifest : Manifest}
  {references : References} {error : AuditError}

/-! ## What is wanting -/

/-- An audit wants something, whatever else it finds first. -/
inductive Wants (settings : Settings) (files : FileSystem) (manifest : Manifest) : Prop where
  /-- An audited configuration. -/
  | audited {name : String} (listed : name ∈ settings.configurations)
      (unknown : ¬ manifest.Knows name)
  /-- The configuration of the class path. -/
  | classPath (unknown : ¬ manifest.Knows settings.classpathConfiguration)
  /-- The classes of a container on the class path. -/
  | container {found : Configuration} {artifact : ResolvedArtifact} {fault : ListingFault}
      (present : manifest.configuration? settings.classpathConfiguration = some found)
      (member : artifact ∈ found.artifacts) (unlistable : Unlistable files artifact fault)
  /-- A configuration that the audited ones lead to. -/
  | inherited {name : String} (reached : manifest.Reachable settings.configurations name)
      (unknown : ¬ manifest.Knows name)

/-- The error is about the first thing that an audit wants. -/
inductive Blames (settings : Settings) (files : FileSystem) (manifest : Manifest) :
    AuditError → Prop where
  | audited {before after : List String} {name : String}
      (shape : settings.configurations = before ++ name :: after)
      (known : ∀ other ∈ before, manifest.Knows other) (unknown : ¬ manifest.Knows name) :
      Blames settings files manifest (.configuration name)
  | classPath (known : ∀ name ∈ settings.configurations, manifest.Knows name)
      (unknown : ¬ manifest.Knows settings.classpathConfiguration) :
      Blames settings files manifest (.configuration settings.classpathConfiguration)
  | container {found : Configuration} {before after : List ResolvedArtifact}
      {artifact : ResolvedArtifact} {fault : ListingFault}
      (known : ∀ name ∈ settings.configurations, manifest.Knows name)
      (present : manifest.configuration? settings.classpathConfiguration = some found)
      (shape : found.artifacts = before ++ artifact :: after)
      (listable : ∀ other ∈ before, ∀ fault, ¬ Unlistable files other fault)
      (unlistable : Unlistable files artifact fault) :
      Blames settings files manifest (.artifact artifact.id artifact.file fault)
  | inherited {found : Configuration} {name : String}
      (known : ∀ name ∈ settings.configurations, manifest.Knows name)
      (present : manifest.configuration? settings.classpathConfiguration = some found)
      (listable : ∀ artifact ∈ found.artifacts, ∀ fault, ¬ Unlistable files artifact fault)
      (reached : manifest.Reachable settings.configurations name)
      (unknown : ¬ manifest.Knows name) :
      Blames settings files manifest (.configuration name)

theorem Blames.wants (blames : Blames settings files manifest error) :
    Wants settings files manifest := by
  cases blames with
  | audited shape _ unknown => exact .audited (by simp [shape]) unknown
  | classPath _ unknown => exact .classPath unknown
  | container _ present shape _ unlistable => exact .container present (by simp [shape]) unlistable
  | inherited _ _ _ reached unknown => exact .inherited reached unknown

/-! ## The steps of an audit that fails -/

theorem classPath_eq_error_iff :
    classPath settings manifest = .error error ↔
      (∃ before name after, settings.configurations = before ++ name :: after ∧
        (∀ other ∈ before, manifest.Knows other) ∧ ¬ manifest.Knows name ∧
          error = .configuration name) ∨
      (∀ name ∈ settings.configurations, manifest.Knows name) ∧
        ¬ manifest.Knows settings.classpathConfiguration ∧
          error = .configuration settings.classpathConfiguration := by
  have last : ∀ found : Configuration,
      (pure found.artifacts : Except AuditError (List ResolvedArtifact)) ≠ .error error :=
    fun found failed => nomatch failed
  simp only [classPath, Outcome.bind_eq_error, last, and_false, exists_false, or_false,
    exists_and_right, Outcome.mapM_eq_error_iff, Outcome.exists_mapM_eq_ok,
    Manifest.configuration_eq_error_iff, Manifest.configuration_eq_ok, ← Manifest.knows_iff]

theorem exists_classPath_iff :
    (∃ artifacts, classPath settings manifest = .ok artifacts) ↔
      (∀ name ∈ settings.configurations, manifest.Knows name) ∧
        manifest.Knows settings.classpathConfiguration := by
  simp only [classPath_eq_ok_iff, ← Manifest.knows_iff]
  rw [exists_and_left, Manifest.knows_iff]
  simp

theorem judge_eq_error_iff {index : ClassIndex}
    (known : ∀ name ∈ settings.configurations, manifest.Knows name) :
    judge settings manifest references index = .error error ↔
      manifest.declared settings.configurations = .error error := by
  obtain ⟨direct, listed⟩ := Manifest.direct_eq_ok_iff.mpr fun name member =>
    Manifest.knows_iff.mp (known name member)
  unfold judge
  cases manifest.declared settings.configurations with
  | error first => simp [bind, Except.bind]
  | ok declared =>
      rw [listed]
      exact ⟨nofun, nofun⟩

/-- An audit fails where its first step does that fails. -/
theorem classify_eq_error_iff :
    classify settings files manifest references = .error error ↔
      classPath settings manifest = .error error ∨
      ∃ artifacts, classPath settings manifest = .ok artifacts ∧
        (Indexing.populate files artifacts = .error error ∨
          (∃ index, Indexing.populate files artifacts = .ok index) ∧
            manifest.declared settings.configurations = .error error) := by
  rw [classify, Outcome.bind_eq_error]
  refine or_congr_right (exists_congr fun artifacts => and_congr_right fun found => ?_)
  have known := (exists_classPath_iff.mp ⟨artifacts, found⟩).1
  simp only [Outcome.bind_eq_error, judge_eq_error_iff known, exists_and_right]

theorem exists_populate_iff {artifacts : List ResolvedArtifact} :
    (∃ index, Indexing.populate files artifacts = .ok index) ↔
      ∀ artifact ∈ artifacts, ∀ fault, ¬ Unlistable files artifact fault := by
  simp only [Indexing.populate_eq_ok_iff, exists_and_left, exists_eq, and_true,
    Indexing.exists_listing_iff]

/-! ## Failing exactly -/

/-- The error of an audit is about the first thing that it wants. -/
theorem blames_of_classify
    (failed : classify settings files manifest references = .error error) :
    Blames settings files manifest error := by
  rcases classify_eq_error_iff.mp failed with early | ⟨artifacts, path, late⟩
  · rcases classPath_eq_error_iff.mp early with
      ⟨before, name, after, shape, known, unknown, rfl⟩ | ⟨known, unknown, rfl⟩
    · exact .audited shape known unknown
    · exact .classPath known unknown
  · obtain ⟨known, _⟩ := exists_classPath_iff.mp ⟨artifacts, path⟩
    obtain ⟨_, found, present, rfl⟩ := classPath_eq_ok_iff.mp path
    rcases late with broken | ⟨populated, unknown⟩
    · obtain ⟨before, artifact, after, fault, shape, listable, unlistable, rfl⟩ :=
        Indexing.populate_eq_error_iff.mp broken
      exact .container known present shape listable unlistable
    · obtain ⟨name, rfl, reached, absent⟩ := Manifest.declared_eq_error unknown
      exact .inherited known present (exists_populate_iff.mp populated) reached
        (Manifest.not_knows_iff.mpr absent)

/-- An audit that finds something wants nothing. -/
theorem not_wants_of_classify {sets : DependencySets}
    (classified : classify settings files manifest references = .ok sets) :
    ¬ Wants settings files manifest := by
  obtain ⟨artifacts, index, declared, _, path, populated, inherited, _, _⟩ :=
    classify_eq_ok_iff.mp classified
  obtain ⟨known, knownPath⟩ := exists_classPath_iff.mp ⟨artifacts, path⟩
  obtain ⟨_, found, present, rfl⟩ := classPath_eq_ok_iff.mp path
  intro wants
  cases wants with
  | audited listed unknown => exact unknown (known _ listed)
  | classPath unknown => exact unknown knownPath
  | container there member unlistable =>
      cases present.symm.trans there
      exact exists_populate_iff.mp ⟨index, populated⟩ _ member _ unlistable
  | inherited reached unknown =>
      exact unknown (Manifest.knows_iff.mpr
        (Manifest.declared_eq_ok_iff.mp ⟨declared, inherited⟩ _ reached))

theorem wants_iff_fails :
    Wants settings files manifest ↔
      ∃ error, classify settings files manifest references = .error error := by
  constructor
  · intro wants
    cases answer : classify settings files manifest references with
    | ok sets => exact absurd wants (not_wants_of_classify answer)
    | error error => exact ⟨error, rfl⟩
  · rintro ⟨error, failed⟩
    exact (blames_of_classify failed).wants

/-! ## What cannot make an audit fail -/

/-- The artifacts of a configuration that are taken for containers. -/
def containersOf (files : FileSystem) (configuration : Configuration) : List ResolvedArtifact :=
  configuration.artifacts.filter fun artifact => (artifact.container? files).isSome

/-- Two audits look for the same things: the same names, with the same extensions as far as the
audited ones lead, and the same containers on the class path. -/
structure Alike (files : FileSystem) (settings other : Settings) (manifest changed : Manifest) :
    Prop where
  audited : other.configurations = settings.configurations
  classPath : other.classpathConfiguration = settings.classpathConfiguration
  extends_ : ∀ name, manifest.Reachable settings.configurations name →
    manifest.ExtendsAlike changed name
  containers :
    (changed.configuration? settings.classpathConfiguration).map (containersOf files) =
      (manifest.configuration? settings.classpathConfiguration).map (containersOf files)

theorem pads_containersOf (artifacts : List ResolvedArtifact) :
    Indexing.Pads files (artifacts.filter fun artifact => (artifact.container? files).isSome)
      artifacts := by
  induction artifacts with
  | nil => exact .nil
  | cons artifact rest pads =>
      cases kind : artifact.container? files with
      | none =>
          rw [List.filter_cons_of_neg (by simp [kind])]
          exact .put kind pads
      | some container =>
          rw [List.filter_cons_of_pos (by simp [kind])]
          exact .keep artifact pads

/-- An index depends on containers alone. -/
theorem populate_containersOf (configuration : Configuration) :
    Indexing.populate files configuration.artifacts =
      Indexing.populate files (containersOf files configuration) :=
  Indexing.populate_padded (pads_containersOf configuration.artifacts)

/-- Steps that fail alike let an audit fail alike. -/
theorem classify_eq_error_congr {other : Settings} {changed : Manifest} {anything : References}
    {artifacts others : List ResolvedArtifact}
    (path : classPath settings manifest = .ok artifacts)
    (path' : classPath other changed = .ok others)
    (containers : Indexing.populate files others = Indexing.populate files artifacts)
    (inherited : changed.declared other.configurations = .error error ↔
      manifest.declared settings.configurations = .error error) :
    classify other files changed anything = .error error ↔
      classify settings files manifest references = .error error := by
  simp only [classify_eq_error_iff, path, path', Except.ok.injEq, exists_eq_left', reduceCtorEq,
    false_or, containers, inherited]

/-- Audits that look for the same things fail together, with the same error. -/
theorem Alike.classify_eq_error_iff {other : Settings} {changed : Manifest}
    {anything : References} (alike : Alike files settings other manifest changed) :
    classify other files changed anything = .error error ↔
      classify settings files manifest references = .error error := by
  have named : ∀ name ∈ settings.configurations, changed.Knows name ↔ manifest.Knows name :=
    fun name member => (alike.extends_ name (.listed member)).knows_iff
  have pathNamed : changed.Knows settings.classpathConfiguration ↔
      manifest.Knows settings.classpathConfiguration := by
    have same := congrArg Option.isSome alike.containers
    rw [Option.isSome_map, Option.isSome_map] at same
    rw [Manifest.knows_iff, Manifest.knows_iff, ← Option.isSome_iff_exists,
      ← Option.isSome_iff_exists, same]
  cases path : Classification.classPath settings manifest with
  | error early =>
    -- Both fail at their first step, which asks for nothing but known names.
    have early' : Classification.classPath other changed = .error early := by
      rw [classPath_eq_error_iff] at path ⊢
      rw [alike.audited, alike.classPath, pathNamed]
      refine path.imp ?_ fun ⟨known, unknown⟩ =>
        ⟨fun name member => (named name member).mpr (known name member), unknown⟩
      rintro ⟨before, name, after, shape, known, unknown⟩
      have listed : ∀ name' ∈ before ++ name :: after, name' ∈ settings.configurations :=
        fun _ member => shape ▸ member
      refine ⟨before, name, after, shape, fun name' member => ?_, ?_⟩
      · exact (named name' (listed _ (by simp [member]))).mpr (known name' member)
      · rwa [named name (listed _ (by simp))]
    simp only [Classification.classify_eq_error_iff, path, early', reduceCtorEq, false_and,
      exists_false, or_false]
  | ok artifacts =>
    obtain ⟨known, knownPath⟩ := exists_classPath_iff.mp ⟨artifacts, path⟩
    obtain ⟨others, path'⟩ : ∃ others,
        Classification.classPath other changed = .ok others := by
      rw [exists_classPath_iff, alike.audited, alike.classPath, pathNamed]
      exact ⟨fun name member => (named name member).mpr (known name member), knownPath⟩
    obtain ⟨_, found, present, rfl⟩ := classPath_eq_ok_iff.mp path
    obtain ⟨_, found', present', rfl⟩ := classPath_eq_ok_iff.mp path'
    have same := alike.containers
    rw [present, ← alike.classPath, present', Option.map_some, Option.map_some,
      Option.some.injEq] at same
    refine classify_eq_error_congr path path' ?_ ?_
    · rw [populate_containersOf, populate_containersOf found, same]
    · rw [alike.audited]
      exact Manifest.declared_eq_error_congr alike.extends_

/-- **Exactly when and how an audit fails.**  It fails if and only if it wants an audited
configuration, that of the class path, the classes of a container there, or a configuration that
the audited ones lead to; its error is about the first of these, in this order; and audits that
look for the same things fail alike, whatever else they are given. -/
theorem fails_exactly (settings : Settings) (files : FileSystem) (manifest : Manifest)
    (references : References) :
    ((∃ error, classify settings files manifest references = .error error) ↔
      Wants settings files manifest) ∧
    (∀ error, classify settings files manifest references = .error error →
      Blames settings files manifest error) ∧
    ∀ other changed anything, Alike files settings other manifest changed → ∀ error,
      classify other files changed anything = .error error ↔
        classify settings files manifest references = .error error := by
  refine ⟨wants_iff_fails.symm, fun error failed => blames_of_classify failed, ?_⟩
  intro other changed anything alike error
  exact alike.classify_eq_error_iff

end Failing

/-! ### An audit that wants two things -/

namespace Amiss

def library : ResolvedArtifact := ⟨.module "g" "a" (some "1"), ⟨"a"⟩, none⟩

def gone : ResolvedArtifact := ⟨.module "g" "d" none, ⟨"gone.jar"⟩, none⟩

def implementation : Configuration := ⟨"implementation", ["absent"], ["g:a:1"], []⟩

/-- A jar of the class path is missing and so is what the audited configuration extends. -/
def manifest : Manifest where
  project := "app"
  configurations := [implementation, ⟨"compileClasspath", [], [], [library, gone]⟩]

/-- More is missing here: what the class path extends, an artifact that is no container, and a
jar of another configuration. -/
def changed : Manifest where
  project := ""
  configurations := [
    { implementation with dependencies := [] },
    ⟨"compileClasspath", ["nowhere"], [], [⟨.project "e", ⟨"gone.aar"⟩, none⟩, library, gone]⟩,
    ⟨"runtimeClasspath", [], [], [gone]⟩]

theorem unlistable_gone : Unlistable Example.files gone .missing :=
  ⟨.jar, by decide +kernel, .inl ⟨by decide +kernel, rfl⟩⟩

theorem listable_library : ∀ fault, ¬ Unlistable Example.files library fault :=
  Indexing.exists_listing_iff.mp
    ⟨.scanned .directory ["C"], Outcome.toOption_eq_some.mp (by decide +kernel)⟩

theorem failed : classify Settings.default Example.files manifest Example.references =
    .error (.artifact gone.id gone.file .missing) := by
  refine classify_eq_error_iff.mpr (.inr ⟨[library, gone], rfl, .inl ?_⟩)
  refine Indexing.populate_eq_error_iff.mpr ⟨[library], gone, [], .missing, rfl, ?_,
    unlistable_gone, rfl⟩
  rw [List.forall_mem_singleton]
  exact listable_library

theorem reachable {name : String}
    (reached : manifest.Reachable Settings.default.configurations name) :
    name = "implementation" ∨ name = "absent" := by
  induction reached with
  | listed member => exact .inl (List.mem_singleton.mp member)
  | extended _ present extends_ earlier =>
      rcases earlier with rfl | rfl
      · cases present
        exact .inr (List.mem_singleton.mp extends_)
      · cases present

theorem wants : Wants Settings.default Example.files manifest := by
  have reached : manifest.Reachable Settings.default.configurations "absent" :=
    .extended (.listed (List.mem_singleton_self _)) rfl (List.mem_singleton_self _)
  exact .inherited reached (Manifest.not_knows_iff.mpr rfl)

theorem alike : Alike Example.files Settings.default
    { Settings.default with sourceOnlyConfigurations := ["gone"] } manifest changed where
  audited := rfl
  classPath := rfl
  extends_ name reached := by
    rcases reachable reached with rfl | rfl <;> rfl
  containers := by decide +kernel

end Amiss

/-- The jar is to blame, and no more is if more is missing that the audit does not look for. -/
theorem fails_exactly_of_amiss :
    (∃ error, classify Settings.default Example.files Amiss.manifest Example.references =
      .error error) ∧
    Blames Settings.default Example.files Amiss.manifest
      (.artifact (.module "g" "d" none) ⟨"gone.jar"⟩ .missing) ∧
    classify { Settings.default with sourceOnlyConfigurations := ["gone"] } Example.files
        Amiss.changed ⟨.empty, .empty⟩ =
      .error (.artifact (.module "g" "d" none) ⟨"gone.jar"⟩ .missing) := by
  obtain ⟨fails, blames, congr⟩ :=
    fails_exactly Settings.default Example.files Amiss.manifest Example.references
  exact ⟨fails.mpr Amiss.wants, blames _ Amiss.failed,
    (congr _ _ _ Amiss.alike _).mpr Amiss.failed⟩

end Classification

end DependencyAudit
