/-
# DependencyAudit.Proofs.Findings -- what is undeclared and what is unused

The findings of an audit follow from five sets of names, whatever configurations inherit
from one another: what is required, what the audited configurations inherit (`Inherits`),
what they list themselves (`Lists`), what source-only configurations list, and what is
exempt.  Undeclared is what is required and in none of the others; unused is what is
listed and in none of the others, the project's own name aside (`ClosedForm`).

From this the order of the findings follows (`ClosedForm.lawful`): nothing is both required and
unused, nothing exempt is found, and the project is never found.  Exemptions are no part of
what is required, so they cannot change it (`judge_of_exempting`).

All this is said of the judgement of an index, and an audit with a cache judges an index as
one without a cache does.  Where the classes of an artifact come from makes no difference to it
(`findings_exact`).
-/
import DependencyAudit.Proofs.Provenance

namespace DependencyAudit.Classification

set_option autoImplicit false

/-! ## The findings from the names -/

/-- What an audit finds undeclared and unused, said without its steps. -/
structure ClosedForm (settings : Settings) (manifest : Manifest) (sets : DependencySets) :
    Prop where
  implicit : ∀ dependency, dependency ∈ sets.implicit ↔ dependency ∈ sets.required ∧
    ¬ manifest.Inherits settings.configurations dependency ∧
    ¬ manifest.Lists settings.sourceOnlyConfigurations dependency ∧
    ¬ Dependency.Spelled (settings.ignore ++ settings.ignoreImplicit) dependency
  unused : ∀ dependency, dependency ∈ sets.unused ↔
    manifest.Lists settings.configurations dependency ∧ dependency ∉ sets.required ∧
    ¬ manifest.Lists settings.sourceOnlyConfigurations dependency ∧
    ¬ Dependency.Spelled (settings.ignore ++ settings.ignoreUnused) dependency ∧
    manifest.ownDependency? ≠ some dependency

/-- How the findings of an audit lie to each other. -/
structure Lawful (settings : Settings) (manifest : Manifest) (sets : DependencySets) : Prop where
  implicit_required : ∀ dependency ∈ sets.implicit, dependency ∈ sets.required
  apiRequired_required : ∀ dependency ∈ sets.apiRequired, dependency ∈ sets.required
  unused_not_required : ∀ dependency ∈ sets.unused, dependency ∉ sets.required
  /-- What only a parent declares is not unused. -/
  unused_listed : ∀ dependency ∈ sets.unused, manifest.Lists settings.configurations dependency
  ignored : ∀ dependency, Dependency.Spelled settings.ignore dependency →
    dependency ∉ sets.implicit ∧ dependency ∉ sets.unused
  ignored_implicit : ∀ dependency, Dependency.Spelled settings.ignoreImplicit dependency →
    dependency ∉ sets.implicit
  ignored_unused : ∀ dependency, Dependency.Spelled settings.ignoreUnused dependency →
    dependency ∉ sets.unused
  sourceOnly : ∀ dependency, manifest.Lists settings.sourceOnlyConfigurations dependency →
    dependency ∉ sets.implicit ∧ dependency ∉ sets.unused
  own : ∀ dependency, manifest.ownDependency? = some dependency →
    dependency ∉ sets.required ∧ dependency ∉ sets.apiRequired ∧
      dependency ∉ sets.implicit ∧ dependency ∉ sets.unused

theorem mem_sourceOnly {settings : Settings} {manifest : Manifest} {dependency : String} :
    dependency ∈ sourceOnly settings manifest ↔
      manifest.Lists settings.sourceOnlyConfigurations dependency := by
  simp only [sourceOnly, NameSet.mem_unions, List.mem_map, List.mem_filterMap, Manifest.Lists]
  constructor
  · rintro ⟨_, ⟨found, ⟨name, member, present⟩, rfl⟩, declares⟩
    exact ⟨name, member, found, present, Configuration.mem_declarations.mp declares⟩
  · rintro ⟨name, member, found, present, spelled⟩
    exact ⟨_, ⟨found, ⟨name, member, present⟩, rfl⟩, Configuration.mem_declarations.mpr spelled⟩

theorem mem_implicitExemptions {settings : Settings} {dependency : String} :
    dependency ∈ settings.implicitExemptions ↔
      Dependency.Spelled (settings.ignore ++ settings.ignoreImplicit) dependency := by
  simp only [Settings.implicitExemptions, NameSet.mem_ofList, List.mem_map, Dependency.Spelled]

theorem mem_unusedExemptions {settings : Settings} {dependency : String} :
    dependency ∈ settings.unusedExemptions ↔
      Dependency.Spelled (settings.ignore ++ settings.ignoreUnused) dependency := by
  simp only [Settings.unusedExemptions, NameSet.mem_ofList, List.mem_map, Dependency.Spelled]

/-- The steps of an audit come to the closed form. -/
theorem closedForm_of_steps {settings : Settings} {manifest : Manifest}
    {required apiRequired declared direct : NameSet}
    (inherited : manifest.declared settings.configurations = .ok declared)
    (listed : manifest.direct settings.configurations = .ok direct) :
    ClosedForm settings manifest
      (withoutSelf manifest (findings settings manifest required apiRequired declared direct)) := by
  constructor <;> intro dependency <;>
    simp only [withoutSelf_eq, findings, Manifest.mem_othersOf, NameSet.mem_diff, NameSet.mem_inter,
      Manifest.mem_declared_iff inherited, Manifest.mem_direct_iff listed, mem_sourceOnly,
      mem_implicitExemptions, mem_unusedExemptions]
  · constructor
    · rintro ⟨⟨⟨⟨needed, undeclared⟩, leaves⟩, counts⟩, other⟩
      exact ⟨⟨needed, other⟩, undeclared, leaves, counts⟩
    · rintro ⟨⟨needed, other⟩, undeclared, leaves, counts⟩
      exact ⟨⟨⟨⟨needed, undeclared⟩, leaves⟩, counts⟩, other⟩
  · constructor
    · rintro ⟨⟨⟨⟨⟨_, unneeded⟩, lists⟩, leaves⟩, counts⟩, other⟩
      exact ⟨lists, fun needed => unneeded needed.1, leaves, counts, other⟩
    · rintro ⟨lists, unneeded, leaves, counts, other⟩
      exact ⟨⟨⟨⟨⟨lists.inherits, fun needed => unneeded ⟨needed, other⟩⟩, lists⟩, leaves⟩, counts⟩,
        other⟩

theorem closedForm_of_judge {settings : Settings} {manifest : Manifest} {references : References}
    {index : ClassIndex} {sets : DependencySets}
    (judged : judge settings manifest references index = .ok sets) :
    ClosedForm settings manifest sets := by
  obtain ⟨declared, direct, inherited, listed, rfl⟩ := judge_eq_ok_iff.mp judged
  exact closedForm_of_steps inherited listed

/-! ## Order among the findings -/

section Judged

variable {settings : Settings} {manifest : Manifest} {references : References}
  {index : ClassIndex} {sets : DependencySets}

theorem apiRequired_of_judge (judged : judge settings manifest references index = .ok sets)
    {dependency : String} (found : dependency ∈ sets.apiRequired) :
    dependency ∈ sets.required := by
  obtain ⟨_, _, _, _, rfl⟩ := judge_eq_ok_iff.mp judged
  rw [withoutSelf_eq, Manifest.mem_othersOf] at found ⊢
  exact ⟨apiRequired_subset_required found.1, found.2⟩

theorem own_notMem_required (judged : judge settings manifest references index = .ok sets)
    {dependency : String} (own : manifest.ownDependency? = some dependency) :
    dependency ∉ sets.required := by
  obtain ⟨_, _, _, _, rfl⟩ := judge_eq_ok_iff.mp judged
  rw [withoutSelf_eq, Manifest.mem_othersOf]
  exact fun found => found.2 own

/-- Exemptions decide neither whether an index can be judged nor what is required. -/
theorem judge_of_exempting (judged : judge settings manifest references index = .ok sets)
    (ignore ignoreImplicit ignoreUnused : List String) :
    ∃ other, judge { settings with ignore, ignoreImplicit, ignoreUnused } manifest references
        index = .ok other ∧
      other.required = sets.required ∧ other.apiRequired = sets.apiRequired := by
  obtain ⟨declared, direct, inherited, listed, rfl⟩ := judge_eq_ok_iff.mp judged
  refine ⟨_, judge_eq_ok_iff.mpr ⟨declared, direct, inherited, listed, rfl⟩, ?_, ?_⟩ <;>
    simp only [withoutSelf_eq, findings]

end Judged

theorem ClosedForm.lawful {settings : Settings} {manifest : Manifest} {sets : DependencySets}
    (form : ClosedForm settings manifest sets)
    (api : ∀ dependency ∈ sets.apiRequired, dependency ∈ sets.required)
    (own : ∀ dependency, manifest.ownDependency? = some dependency →
      dependency ∉ sets.required) : Lawful settings manifest sets where
  implicit_required dependency found := ((form.implicit dependency).mp found).1
  apiRequired_required := api
  unused_not_required dependency found := ((form.unused dependency).mp found).2.1
  unused_listed dependency found := ((form.unused dependency).mp found).1
  ignored dependency spelled := by
    refine ⟨fun found => ?_, fun found => ?_⟩
    · obtain ⟨_, _, _, counts⟩ := (form.implicit dependency).mp found
      exact counts (Dependency.spelled_append.mpr (.inl spelled))
    · obtain ⟨_, _, _, counts, _⟩ := (form.unused dependency).mp found
      exact counts (Dependency.spelled_append.mpr (.inl spelled))
  ignored_implicit dependency spelled found := by
    obtain ⟨_, _, _, counts⟩ := (form.implicit dependency).mp found
    exact counts (Dependency.spelled_append.mpr (.inr spelled))
  ignored_unused dependency spelled found := by
    obtain ⟨_, _, _, counts, _⟩ := (form.unused dependency).mp found
    exact counts (Dependency.spelled_append.mpr (.inr spelled))
  sourceOnly dependency listed := by
    refine ⟨fun found => ?_, fun found => ?_⟩
    · obtain ⟨_, _, leaves, _⟩ := (form.implicit dependency).mp found
      exact leaves listed
    · obtain ⟨_, _, leaves, _⟩ := (form.unused dependency).mp found
      exact leaves listed
  own dependency same := by
    refine ⟨own dependency same, fun found => own dependency same (api dependency found),
      fun found => own dependency same ((form.implicit dependency).mp found).1, fun found => ?_⟩
    obtain ⟨_, _, _, _, other⟩ := (form.unused dependency).mp found
    exact other same

/-- What is said of the findings of an audit, which has an answer for all settings. -/
structure Exact (audit : Settings → Except AuditError DependencySets) (settings : Settings)
    (manifest : Manifest) (sets : DependencySets) : Prop where
  closedForm : ClosedForm settings manifest sets
  lawful : Lawful settings manifest sets
  /-- With other exemptions there is an answer too, and the same is required. -/
  exempting : ∀ ignore ignoreImplicit ignoreUnused, ∃ other,
    audit { settings with ignore, ignoreImplicit, ignoreUnused } = .ok other ∧
      other.required = sets.required ∧ other.apiRequired = sets.apiRequired

section Audits

variable {settings : Settings} {files : FileSystem} {manifest : Manifest} {references : References}
  {sets : DependencySets}

/-- An audit judges an index, which is the same whatever is exempt. -/
theorem exact_of_judge {audit : Settings → Except AuditError DependencySets} {index : ClassIndex}
    (judges : ∀ ignore ignoreImplicit ignoreUnused,
      audit { settings with ignore, ignoreImplicit, ignoreUnused } =
        judge { settings with ignore, ignoreImplicit, ignoreUnused } manifest references index)
    (judged : judge settings manifest references index = .ok sets) :
    Exact audit settings manifest sets where
  closedForm := closedForm_of_judge judged
  lawful := (closedForm_of_judge judged).lawful (fun _ => apiRequired_of_judge judged)
    (fun _ => own_notMem_required judged)
  exempting ignore ignoreImplicit ignoreUnused := by
    rw [judges]
    exact judge_of_exempting judged ignore ignoreImplicit ignoreUnused

theorem exact_of_classify (classified : classify settings files manifest references = .ok sets) :
    Exact (fun other => classify other files manifest references) settings manifest sets := by
  obtain ⟨artifacts, path, classified⟩ := Outcome.bind_eq_ok.mp classified
  obtain ⟨index, populated, judged⟩ := Outcome.bind_eq_ok.mp classified
  refine exact_of_judge (fun ignore ignoreImplicit ignoreUnused => ?_) judged
  have same : classPath { settings with ignore, ignoreImplicit, ignoreUnused } manifest =
      .ok artifacts := path
  change (classPath _ manifest).bind _ = _
  rw [same]
  change (Indexing.populate files artifacts).bind _ = _
  rw [populated]
  rfl

/-- A cache has a say in the index, and in nothing else. -/
theorem exact_of_classifyWith {cache : Cache}
    (classified : (classifyWith cache settings files manifest references).2 = .ok sets) :
    Exact (fun other => (classifyWith cache other files manifest references).2) settings manifest
      sets := by
  cases path : classPath settings manifest with
  | error error => simp [classifyWith, path] at classified
  | ok artifacts =>
      simp only [classifyWith, path] at classified
      obtain ⟨index, indexed, judged⟩ := Outcome.bind_eq_ok.mp classified
      refine exact_of_judge (fun ignore ignoreImplicit ignoreUnused => ?_) judged
      have same : classPath { settings with ignore, ignoreImplicit, ignoreUnused } manifest =
          .ok artifacts := path
      simp only [classifyWith, same, indexed]
      rfl

/-- **The findings, exactly.**  Whatever configurations inherit from one another, an audit
finds what the closed form says; so its findings are lawful, and exemptions leave alone what
is required.  This is so with a cache as well, whatever it holds. -/
theorem findings_exact :
    (∀ sets, classify settings files manifest references = .ok sets →
      Exact (fun other => classify other files manifest references) settings manifest sets) ∧
    ∀ cache sets, (classifyWith cache settings files manifest references).2 = .ok sets →
      Exact (fun other => (classifyWith cache other files manifest references).2) settings
        manifest sets :=
  ⟨fun _ => exact_of_classify, fun _ _ => exact_of_classifyWith⟩

end Audits

namespace Circle

/-- The audited configurations extend one another, and one of them extends a third. -/
def settings : Settings :=
  { Settings.default with configurations := ["api", "implementation"], ignore := ["g:i"] }

def manifest : Manifest where
  project := ":app"
  configurations := [
    ⟨"api", ["implementation", "parent"], ["g:u:2"], []⟩,
    ⟨"implementation", ["api"], ["g:a:1", "project :app", "g:s", "g:i:3"], []⟩,
    ⟨"parent", [], ["g:p"], []⟩, ⟨"compileOnly", [], ["g:s:1"], []⟩, Example.classPath]

def sets : DependencySets :=
  ⟨.ofList ["g:c"], .ofList ["g:c"], .ofList ["g:c"], .ofList ["g:a", "g:u"]⟩

theorem classified :
    classify settings Example.files manifest Example.references = .ok sets := by
  have declared : manifest.declared settings.configurations =
      .ok (.ofList ["g:a", "g:i", "g:p", "g:s", "g:u", "project :app"]) := by cbv
  refine Outcome.toOption_eq_some.mp ?_
  simp only [classify, judge, declared]
  decide +kernel

end Circle

namespace Cached

/-- A jar that holds nothing. -/
def files : FileSystem where
  entries := [(["b.jar"], .file ⟨[], 0⟩)]
  workingDirectory := []
  clock := 0

def cache : Cache := ((Cache.begun 0).insert files ⟨"b.jar"⟩ ["C"]).1

def manifest : Manifest where
  project := ":app"
  configurations := [⟨"implementation", [], ["g:a:1"], []⟩,
    ⟨"compileClasspath", [], [], [⟨.module "g" "b" none, ⟨"b.jar"⟩, none⟩]⟩]

def references : References := ⟨.ofList ["C"], .empty⟩

def sets : DependencySets := ⟨.ofList ["g:b"], .empty, .ofList ["g:b"], .ofList ["g:a"]⟩

theorem classified :
    (classifyWith cache Settings.default files manifest references).2 = .ok sets := by
  have declared : manifest.declared Settings.default.configurations = .ok (.ofList ["g:a"]) := by
    cbv
  have judges : judge Settings.default manifest references = fun index =>
      (manifest.direct Settings.default.configurations).map fun direct =>
        withoutSelf manifest (findings Settings.default manifest
          (dependenciesFor index manifest references.used)
          (dependenciesFor index manifest references.api) (.ofList ["g:a"]) direct) := by
    funext index
    rw [judge, declared]
    rfl
  refine Outcome.toOption_eq_some.mp ?_
  simp only [classifyWith, judges]
  decide +kernel

end Cached

/-- Of six dependencies that are declared and not required, two are unused; and a jar that could
not be listed is known from the cache. -/
theorem findings_exact_of_circle :
    Exact (fun other => classify other Example.files Circle.manifest Example.references)
        Circle.settings Circle.manifest Circle.sets ∧
      Exact (fun other =>
          (classifyWith Cached.cache other Cached.files Cached.manifest Cached.references).2)
        Settings.default Cached.manifest Cached.sets :=
  ⟨findings_exact.1 _ Circle.classified, findings_exact.2 _ _ Cached.classified⟩

end DependencyAudit.Classification
