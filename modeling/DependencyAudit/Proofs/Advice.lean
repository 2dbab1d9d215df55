/-
# DependencyAudit.Proofs.Advice -- an audit after its own advice

The findings of an audit are advice: remove what is unused from the audited
configurations, and declare what is implicit.  `Manifest.amended` is a manifest after that:
in each audited configuration the unused dependencies are gone, and the first one declares
the implicit ones as well.

The change touches nothing but declarations (`configuration?_amended`).  So the names that
are known, what they extend and what they resolve to stay as they were, and what is
required with them.  A removed dependency was not required, so nothing becomes implicit by
its removal; an added one is required, so it is not unused.  An audited configuration may
be a parent, a source-only or the class path configuration at the same time, and the
argument does not ask (`classify_amended`).
-/
import DependencyAudit.Proofs.Findings

namespace DependencyAudit

set_option autoImplicit false

/-! ## Changed declarations -/

namespace Configuration

/-- Without the spellings of some dependencies. -/
def dropping (names : NameSet) (configuration : Configuration) : Configuration :=
  { configuration with
    dependencies := configuration.dependencies.filter fun spelling =>
      decide (Dependency.normalize spelling ∉ names) }

/-- With some dependencies declared last. -/
def declaring (names : NameSet) (configuration : Configuration) : Configuration :=
  { configuration with dependencies := configuration.dependencies ++ names.toList }

/-- After the advice of an audit of the configurations of some names: without what is unused
if it is one of them, and with what is implicit if it is the first. -/
def amended (audited : List String) (sets : DependencySets) (configuration : Configuration) :
    Configuration :=
  let pruned :=
    if configuration.name ∈ audited then configuration.dropping sets.unused else configuration
  if audited.head? = some configuration.name then pruned.declaring sets.implicit else pruned

theorem name_dropping (names : NameSet) (configuration : Configuration) :
    (configuration.dropping names).name = configuration.name := rfl

theorem name_declaring (names : NameSet) (configuration : Configuration) :
    (configuration.declaring names).name = configuration.name := rfl

theorem dropping_dropping (names : NameSet) (configuration : Configuration) :
    (configuration.dropping names).dropping names = configuration.dropping names := by
  simp [dropping]

theorem amended_extendsFrom (audited : List String) (sets : DependencySets)
    (configuration : Configuration) :
    (configuration.amended audited sets).extendsFrom = configuration.extendsFrom := by
  unfold amended
  split <;> split <;> rfl

theorem amended_artifacts (audited : List String) (sets : DependencySets)
    (configuration : Configuration) :
    (configuration.amended audited sets).artifacts = configuration.artifacts := by
  unfold amended
  split <;> split <;> rfl

theorem mem_dropping {names : NameSet} {configuration : Configuration} {spelling : String} :
    spelling ∈ (configuration.dropping names).dependencies ↔
      spelling ∈ configuration.dependencies ∧ Dependency.normalize spelling ∉ names := by
  simp [dropping]

theorem mem_declaring {names : NameSet} {configuration : Configuration} {spelling : String} :
    spelling ∈ (configuration.declaring names).dependencies ↔
      spelling ∈ configuration.dependencies ∨ spelling ∈ names := by
  simp [declaring]

theorem mem_amended {audited : List String} {sets : DependencySets}
    {configuration : Configuration} {spelling : String} :
    spelling ∈ (configuration.amended audited sets).dependencies ↔
      (spelling ∈ configuration.dependencies ∧
          (configuration.name ∈ audited → Dependency.normalize spelling ∉ sets.unused)) ∨
        (audited.head? = some configuration.name ∧ spelling ∈ sets.implicit) := by
  unfold amended
  by_cases first : audited.head? = some configuration.name <;>
    by_cases audits : configuration.name ∈ audited <;>
    simp [mem_declaring, mem_dropping, first, audits]

/-- What is not unused stays. -/
theorem spelled_amended_of_spelled {audited : List String} {sets : DependencySets}
    {configuration : Configuration} {dependency : String} (kept : dependency ∉ sets.unused)
    (spelled : Dependency.Spelled configuration.dependencies dependency) :
    Dependency.Spelled (configuration.amended audited sets).dependencies dependency := by
  obtain ⟨spelling, member, rfl⟩ := spelled
  exact ⟨spelling, mem_amended.mpr (.inl ⟨member, fun _ => kept⟩), rfl⟩

/-- What an audited configuration declares in the end is one of the implicit dependencies,
or it is an old one that is not unused. -/
theorem spelled_of_spelled_amended {audited : List String} {sets : DependencySets}
    {configuration : Configuration} {dependency : String}
    (normal : ∀ name ∈ sets.implicit, Dependency.normalize name = name)
    (audits : configuration.name ∈ audited)
    (spelled : Dependency.Spelled (configuration.amended audited sets).dependencies dependency) :
    dependency ∈ sets.implicit ∨
      Dependency.Spelled configuration.dependencies dependency ∧ dependency ∉ sets.unused := by
  obtain ⟨spelling, member, rfl⟩ := spelled
  rcases mem_amended.mp member with ⟨old, kept⟩ | ⟨_, added⟩
  · exact .inr ⟨⟨spelling, old, rfl⟩, kept audits⟩
  · exact .inl (by rwa [normal spelling added])

end Configuration

namespace Manifest

/-- Changes the first of some configurations that has a name. -/
def changeFirst (change : Configuration → Configuration) (name : String) :
    List Configuration → List Configuration
  | [] => []
  | first :: rest =>
      if first.name = name then change first :: rest else first :: changeFirst change name rest

/-- Changes the configuration of a name. -/
def change (manifest : Manifest) (name : String) (change : Configuration → Configuration) :
    Manifest :=
  { manifest with configurations := changeFirst change name manifest.configurations }

theorem find?_changeFirst {change : Configuration → Configuration} {name other : String}
    (keeps : ∀ configuration, (change configuration).name = configuration.name) :
    ∀ {configurations : List Configuration},
      (changeFirst change name configurations).find? (·.name = other) =
        if other = name then (configurations.find? (·.name = other)).map change
        else configurations.find? (·.name = other)
  | [] => by simp [changeFirst]
  | first :: rest => by
      by_cases same : first.name = name
      · by_cases asked : first.name = other
        · simp [changeFirst, same, keeps, ← asked]
        · have changed : ¬ (change first).name = other := fun equal => asked (keeps first ▸ equal)
          have distinct : ¬ other = name := fun equal => asked (same.trans equal.symm)
          rw [changeFirst, if_pos same, if_neg distinct,
            List.find?_cons_of_neg (by simpa using changed),
            List.find?_cons_of_neg (by simpa using asked)]
      · rw [changeFirst, if_neg same]
        by_cases asked : first.name = other
        · have distinct : ¬ other = name := fun equal => same (asked.trans equal)
          simp [asked, distinct]
        · rw [List.find?_cons_of_neg (by simpa using asked), find?_changeFirst keeps,
            List.find?_cons_of_neg (by simpa using asked)]

theorem configuration?_change {manifest : Manifest} {change : Configuration → Configuration}
    {name other : String}
    (keeps : ∀ configuration, (change configuration).name = configuration.name) :
    (manifest.change name change).configuration? other =
      if other = name then (manifest.configuration? other).map change
      else manifest.configuration? other :=
  find?_changeFirst keeps

/-- The manifest after the advice of an audit of some configurations: the unused dependencies
are gone from each of them, and the first of them declares the implicit ones. -/
def amended (manifest : Manifest) (audited : List String) (sets : DependencySets) : Manifest :=
  let pruned := audited.foldl
    (fun sofar name => sofar.change name (Configuration.dropping sets.unused)) manifest
  match audited with
  | [] => pruned
  | first :: _ => pruned.change first (Configuration.declaring sets.implicit)

theorem configuration?_pruned {names : NameSet} {other : String} :
    ∀ {audited : List String} {manifest : Manifest},
      (audited.foldl (fun sofar name => sofar.change name (Configuration.dropping names))
          manifest).configuration? other =
        if other ∈ audited then (manifest.configuration? other).map (Configuration.dropping names)
        else manifest.configuration? other
  | [], manifest => by simp
  | first :: rest, manifest => by
      rw [List.foldl_cons, configuration?_pruned,
        configuration?_change (Configuration.name_dropping names)]
      by_cases same : other = first
      · -- A second removal of the same dependencies changes nothing.
        simp [same, Function.comp_def, Configuration.dropping_dropping]
      · simp [same]

/-- The advice changes each configuration in its place, and no other part of what is known
about a name. -/
theorem configuration?_amended {manifest : Manifest} {audited : List String}
    {sets : DependencySets} {name : String} :
    (manifest.amended audited sets).configuration? name =
      (manifest.configuration? name).map (Configuration.amended audited sets) := by
  cases audited with
  | nil =>
      have same : Configuration.amended [] sets = id := by
        funext configuration
        simp [Configuration.amended]
      simp [amended, same]
  | cons first rest =>
      simp only [amended]
      rw [configuration?_change (Configuration.name_declaring sets.implicit),
        configuration?_pruned]
      cases present : manifest.configuration? name with
      | none => simp
      | some found =>
          simp only [Option.map_some, Configuration.amended, configuration_name present,
            List.head?_cons, Option.some.injEq]
          by_cases same : first = name
          · simp [same]
          · have distinct : name ≠ first := fun equal => same equal.symm
            by_cases audits : name ∈ rest <;> simp [same, distinct, audits]

theorem configuration?_amended_of_some {manifest : Manifest} {name : String}
    {found : Configuration} (present : manifest.configuration? name = some found)
    (audited : List String) (sets : DependencySets) :
    (manifest.amended audited sets).configuration? name = some (found.amended audited sets) := by
  rw [configuration?_amended, present, Option.map_some]

/-- Every configuration after the advice comes from one before it. -/
theorem exists_of_configuration?_amended {manifest : Manifest} {audited : List String}
    {sets : DependencySets} {name : String} {after : Configuration}
    (present : (manifest.amended audited sets).configuration? name = some after) :
    ∃ found, manifest.configuration? name = some found ∧ found.amended audited sets = after := by
  rw [configuration?_amended] at present
  exact Option.map_eq_some_iff.mp present

theorem project_pruned {names : NameSet} :
    ∀ {audited : List String} {manifest : Manifest},
      (audited.foldl (fun sofar name => sofar.change name (Configuration.dropping names))
          manifest).project = manifest.project
  | [], _ => rfl
  | _ :: rest, _ => by rw [List.foldl_cons, project_pruned]; rfl

@[simp] theorem project_amended {manifest : Manifest} {audited : List String}
    {sets : DependencySets} : (manifest.amended audited sets).project = manifest.project := by
  cases audited with
  | nil => rfl
  | cons first rest => exact project_pruned

/-! ## Inheritance after the advice -/

theorem isSelf_amended {manifest : Manifest} {audited : List String} {sets : DependencySets}
    {id : ArtifactId} : (manifest.amended audited sets).isSelf id = manifest.isSelf id := by
  rw [isSelf, isSelf, own, own, project_amended]

theorem ownDependency?_amended {manifest : Manifest} {audited : List String}
    {sets : DependencySets} :
    (manifest.amended audited sets).ownDependency? = manifest.ownDependency? := by
  rw [ownDependency?, ownDependency?, own, own, project_amended]

theorem othersOf_amended {manifest : Manifest} {audited : List String} {sets : DependencySets}
    {names : NameSet} :
    (manifest.amended audited sets).othersOf names = manifest.othersOf names := by
  ext name
  rw [mem_othersOf, mem_othersOf, ownDependency?_amended]

theorem exists_configuration?_amended {manifest : Manifest} {audited : List String}
    {sets : DependencySets} {name : String} :
    (∃ found, (manifest.amended audited sets).configuration? name = some found) ↔
      ∃ found, manifest.configuration? name = some found := by
  simp only [← Option.isSome_iff_exists, configuration?_amended, Option.isSome_map]

theorem Reachable.amended {manifest : Manifest} {audited : List String} {sets : DependencySets}
    {names : List String} {name : String} (reached : manifest.Reachable names name) :
    (manifest.amended audited sets).Reachable names name := by
  induction reached with
  | listed member => exact .listed member
  | extended _ present extends_ reached =>
      refine reached.extended (configuration?_amended_of_some present audited sets) ?_
      rwa [Configuration.amended_extendsFrom]

theorem reachable_amended_iff {manifest : Manifest} {audited : List String}
    {sets : DependencySets} {names : List String} {name : String} :
    (manifest.amended audited sets).Reachable names name ↔ manifest.Reachable names name := by
  refine ⟨fun reached => ?_, Reachable.amended⟩
  induction reached with
  | listed member => exact .listed member
  | extended _ present extends_ reached =>
      obtain ⟨found, known, rfl⟩ := exists_of_configuration?_amended present
      rw [Configuration.amended_extendsFrom] at extends_
      exact reached.extended known extends_

/-- What is not unused is still inherited, -/
theorem Inherits.amended {manifest : Manifest} {audited : List String} {sets : DependencySets}
    {names : List String} {dependency : String} (kept : dependency ∉ sets.unused)
    (inherits : manifest.Inherits names dependency) :
    (manifest.amended audited sets).Inherits names dependency := by
  obtain ⟨name, found, reached, present, spelled⟩ := inherits
  exact ⟨name, _, reached.amended, configuration?_amended_of_some present audited sets,
    Configuration.spelled_amended_of_spelled kept spelled⟩

/-- and still listed where it was. -/
theorem Lists.amended {manifest : Manifest} {audited : List String} {sets : DependencySets}
    {names : List String} {dependency : String} (kept : dependency ∉ sets.unused)
    (lists : manifest.Lists names dependency) :
    (manifest.amended audited sets).Lists names dependency := by
  obtain ⟨name, member, found, present, spelled⟩ := lists
  exact ⟨name, member, _, configuration?_amended_of_some present audited sets,
    Configuration.spelled_amended_of_spelled kept spelled⟩

/-- What was implicit is listed on an audited configuration. -/
theorem lists_amended_of_implicit {manifest : Manifest} {audited : List String}
    {sets : DependencySets} {dependency : String} (some_audited : audited ≠ [])
    (known : ∀ name ∈ audited, ∃ found, manifest.configuration? name = some found)
    (normal : ∀ name ∈ sets.implicit, Dependency.normalize name = name)
    (implicit : dependency ∈ sets.implicit) :
    (manifest.amended audited sets).Lists audited dependency := by
  obtain ⟨first, rest, rfl⟩ := List.exists_cons_of_ne_nil some_audited
  obtain ⟨found, present⟩ := known first List.mem_cons_self
  have added : dependency ∈ (found.amended (first :: rest) sets).dependencies :=
    Configuration.mem_amended.mpr
      (.inr ⟨by rw [configuration_name present, List.head?_cons], implicit⟩)
  exact ⟨first, List.mem_cons_self, _, configuration?_amended_of_some present (first :: rest) sets,
    dependency, added, normal dependency implicit⟩

/-- What is listed on an audited configuration in the end was implicit, or it was listed
before and is not unused. -/
theorem lists_of_lists_amended {manifest : Manifest} {audited : List String}
    {sets : DependencySets} {dependency : String}
    (normal : ∀ name ∈ sets.implicit, Dependency.normalize name = name)
    (lists : (manifest.amended audited sets).Lists audited dependency) :
    dependency ∈ sets.implicit ∨
      manifest.Lists audited dependency ∧ dependency ∉ sets.unused := by
  obtain ⟨name, audits, _, present, spelled⟩ := lists
  obtain ⟨found, known, rfl⟩ := exists_of_configuration?_amended present
  refine (Configuration.spelled_of_spelled_amended normal ?_ spelled).imp_right
    fun ⟨old, kept⟩ => ⟨⟨name, audits, found, known, old⟩, kept⟩
  rwa [configuration_name known]

end Manifest

/-! ## The second audit -/

namespace Classification

theorem classPath_amended {settings : Settings} {manifest : Manifest} {audited : List String}
    {sets : DependencySets} {artifacts : List ResolvedArtifact}
    (path : classPath settings manifest = .ok artifacts) :
    classPath settings (manifest.amended audited sets) = .ok artifacts := by
  obtain ⟨known, found, present, same⟩ := classPath_eq_ok_iff.mp path
  refine classPath_eq_ok_iff.mpr
    ⟨fun name member => Manifest.exists_configuration?_amended.mpr (known name member),
      found.amended audited sets, Manifest.configuration?_amended_of_some present audited sets, ?_⟩
  rw [Configuration.amended_artifacts, same]

theorem dependenciesFor_amended {index : ClassIndex} {manifest : Manifest}
    {audited : List String} {sets : DependencySets} {classes : NameSet} :
    dependenciesFor index (manifest.amended audited sets) classes =
      dependenciesFor index manifest classes := by
  have same :
      dependencyFor index (manifest.amended audited sets) = dependencyFor index manifest := by
    funext className
    simp only [dependencyFor, Manifest.isSelf_amended]
  rw [dependenciesFor, same, dependenciesFor]

/-- After its advice an audit succeeds as well, and it finds the same required. -/
theorem required_amended {settings : Settings} {files : FileSystem} {manifest : Manifest}
    {references : References} {sets : DependencySets}
    (classified : classify settings files manifest references = .ok sets)
    (audited : List String) (advice : DependencySets) :
    ∃ after, classify settings files (manifest.amended audited advice) references = .ok after ∧
      after.required = sets.required ∧ after.apiRequired = sets.apiRequired := by
  obtain ⟨artifacts, index, declared, direct, path, populated, inherited, listed, rfl⟩ :=
    classify_eq_ok_iff.mp classified
  have known := Manifest.declared_eq_ok_iff.mp ⟨declared, inherited⟩
  obtain ⟨declared', inherited'⟩ : ∃ declared,
      (manifest.amended audited advice).declared settings.configurations = .ok declared :=
    Manifest.declared_eq_ok_iff.mpr fun name reached =>
      Manifest.exists_configuration?_amended.mpr
        (known name (Manifest.reachable_amended_iff.mp reached))
  obtain ⟨direct', listed'⟩ : ∃ direct,
      (manifest.amended audited advice).direct settings.configurations = .ok direct :=
    Manifest.direct_eq_ok_iff.mpr fun name member =>
      Manifest.exists_configuration?_amended.mpr (known name (.listed member))
  refine ⟨_, classify_eq_ok_iff.mpr ⟨artifacts, index, declared', direct', classPath_amended path,
    populated, inherited', listed', rfl⟩, ?_, ?_⟩ <;>
    simp only [withoutSelf_eq, findings, Manifest.othersOf_amended, dependenciesFor_amended]

/-- **Advice clears the report.**  If what was implicit is spelled as reports spell it, then
after the advice an audit finds the same required, and nothing implicit or unused. -/
theorem classify_amended {settings : Settings} {files : FileSystem} {manifest : Manifest}
    {references : References} {sets : DependencySets} (audits : settings.configurations ≠ [])
    (classified : classify settings files manifest references = .ok sets)
    (normal : ∀ name ∈ sets.implicit, Dependency.normalize name = name) :
    classify settings files (manifest.amended settings.configurations sets) references =
      .ok ⟨sets.required, sets.apiRequired, .empty, .empty⟩ := by
  obtain ⟨⟨required, apiRequired, implicit, unused⟩, again, rfl, rfl⟩ :=
    required_amended classified settings.configurations sets
  have before := (exact_of_classify classified).closedForm
  have after := (exact_of_classify again).closedForm
  have known : ∀ name ∈ settings.configurations,
      ∃ found, manifest.configuration? name = some found := by
    obtain ⟨_, _, _, _, path, _⟩ := classify_eq_ok_iff.mp classified
    exact (classPath_eq_ok_iff.mp path).1
  have no_implicit : implicit = .empty := by
    ext dependency
    refine iff_of_false (fun found => ?_) (NameSet.not_mem_empty dependency)
    obtain ⟨needed, undeclared, leaves, counts⟩ := (after.implicit dependency).mp found
    have kept : dependency ∉ sets.unused := fun found =>
      ((before.unused dependency).mp found).2.1 needed
    -- It was not implicit before, for then it would be declared now; so it was declared,
    -- and it still is.
    refine undeclared (Manifest.Lists.inherits (Manifest.lists_amended_of_implicit audits known
      normal ((before.implicit dependency).mpr ⟨needed, ?_, ?_, counts⟩)))
    · exact fun inherits => undeclared (inherits.amended kept)
    · exact fun lists => leaves (lists.amended kept)
  have no_unused : unused = .empty := by
    ext dependency
    refine iff_of_false (fun found => ?_) (NameSet.not_mem_empty dependency)
    obtain ⟨lists, unneeded, leaves, counts, other⟩ := (after.unused dependency).mp found
    rcases Manifest.lists_of_lists_amended normal lists with added | ⟨old, kept⟩
    · exact unneeded ((before.implicit dependency).mp added).1
    · -- It was unused before as well, unless a source-only configuration lists it.
      exact kept ((before.unused dependency).mpr
        ⟨old, unneeded, fun lists => leaves (lists.amended kept), counts,
          Manifest.ownDependency?_amended ▸ other⟩)
  rw [again, no_implicit, no_unused]

/-- In the circle of configurations two dependencies go, and one comes. -/
theorem classify_amended_of_circle :
    classify Circle.settings Example.files
        (Circle.manifest.amended ["api", "implementation"] Circle.sets) Example.references =
      .ok ⟨.ofList ["g:c"], .ofList ["g:c"], .empty, .empty⟩ :=
  classify_amended (by decide) Circle.classified (by decide +kernel)

end Classification

end DependencyAudit
