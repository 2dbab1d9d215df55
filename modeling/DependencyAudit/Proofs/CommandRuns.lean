/-
# DependencyAudit.Proofs.CommandRuns -- runs are all or nothing

Everything a run needs is loaded and classified before anything is stored.  If a part of that
fails, the files are as they were, the cache and an older report among them, and nothing is
printed (`LeavesNothing`, `audit_eq`); it does not matter what the cache had taken up by then.

Otherwise the cache is stored, as far as the system allows, and then the report.  Whether the
run fails is a question of the report alone (`Concludes`): of whether it is written, and, where
a check is asked for, of what it finds (`run_leaves_nothing_or_concludes`).
-/
import DependencyAudit.CommandLine.Run
import DependencyAudit.Proofs.Additions
import DependencyAudit.Proofs.Outcome

namespace DependencyAudit.CommandLine

set_option autoImplicit false

/-! ## What a run needs -/

/-- All that a run works with is there. -/
structure Loads (files : FileSystem) (arguments : Arguments) (subject : Subject) : Prop where
  settings : settingsOf files arguments = .ok subject.settings
  manifest : Manifest.load files arguments.manifest = .ok subject.manifest
  references : arguments.source.references files = .ok subject.references

namespace Subject

/-- Where the cache is, if one is set. -/
def cachePath? (subject : Subject) (arguments : Arguments) : Option Path :=
  subject.settings.cache.map arguments.project.join

/-- Where the report is. -/
def reportPath (subject : Subject) (arguments : Arguments) : Path :=
  arguments.project.join subject.settings.report.output

/-- The paths that a run may write to. -/
def targets (subject : Subject) (arguments : Arguments) : List Path :=
  (subject.cachePath? arguments).toList ++ [subject.reportPath arguments]

/-- What is found with the cache in a file, and that cache with what was taken up. -/
def examineWith (subject : Subject) (files : FileSystem) (path : Path) :
    Cache × Except AuditError DependencySets :=
  Classification.classifyWith (Cache.loadOr files path) subject.settings files subject.manifest
    subject.references

/-- What is found, with a cache where one is set. -/
def found (subject : Subject) (files : FileSystem) (arguments : Arguments) :
    Except AuditError DependencySets :=
  match subject.cachePath? arguments with
  | none => Classification.classify subject.settings files subject.manifest subject.references
  | some path => (subject.examineWith files path).2

/-- The files after the cache is stored, as far as the system allows. -/
def afterCache (subject : Subject) (files : FileSystem) (arguments : Arguments) : FileSystem :=
  match subject.cachePath? arguments with
  | none => files
  | some path => (((subject.examineWith files path).1.prune files).save files path).1

/-- The report can be written once the cache is dealt with. -/
def Reports (subject : Subject) (files : FileSystem) (arguments : Arguments)
    (sets : DependencySets) : Prop :=
  ((Report.ofSets sets).save (subject.afterCache files arguments)
    (subject.reportPath arguments)).2 = .ok ()

end Subject

/-- Something that a run needs fails. -/
inductive Fails (files : FileSystem) (arguments : Arguments) : Prop where
  | settings {error : SettingsError} (fault : settingsOf files arguments = .error error)
  | manifest {error : AuditError} (fault : Manifest.load files arguments.manifest = .error error)
  | references {error : AuditError} (fault : arguments.source.references files = .error error)
  | classification {subject : Subject} {error : AuditError} (loads : Loads files arguments subject)
      (fault : subject.found files arguments = .error error)

/-! ## What is left of a run -/

/-- Nothing is left of a run but that it failed. -/
structure LeavesNothing (files : FileSystem) (outcome : Outcome) : Prop where
  files : outcome.files = files
  printed : outcome.printed = ""
  failures : outcome.failures = []
  exitCode : outcome.exitCode = 1

/-- What is left of a run that comes to findings. -/
structure Concludes (files : FileSystem) (arguments : Arguments) (colored : Bool)
    (subject : Subject) (sets : DependencySets) (outcome : Outcome) : Prop where
  /-- The cache, the report and the directories missing above them change, and nothing else. -/
  touches : files.Touches outcome.files (subject.targets arguments)
    ((subject.targets arguments).flatMap Path.parents)
  /-- If the report can be written, its file holds the findings. -/
  holds : subject.Reports files arguments sets →
    outcome.files.read? (subject.reportPath arguments) =
      some (Text.Utf8.encode (Report.ofSets sets).toYaml)
  /-- What is printed has been stored. -/
  prints : subject.Reports files arguments sets →
    outcome.printed = printed arguments subject.settings colored (.ofSets sets)
  printsNothing : ¬ subject.Reports files arguments sets → outcome.printed = ""
  /-- The run fails on account of the report only. -/
  exits : outcome.exitCode = 1 ↔ ¬ subject.Reports files arguments sets ∨
    arguments.check = true ∧ ∃ name, name ∈ sets.implicit ∨ name ∈ sets.unused

/-! ## Runs -/

section Runs

variable {files : FileSystem} {arguments : Arguments} {colored : Bool} {subject : Subject}

theorem leavesNothing_failed (files : FileSystem) (error : RunError) :
    LeavesNothing files (.failed files error) :=
  ⟨rfl, rfl, rfl, rfl⟩

theorem subjectOf_eq_ok_iff :
    subjectOf files arguments = .ok subject ↔ Loads files arguments subject := by
  simp only [subjectOf, Outcome.bind_eq_ok, Outcome.mapError_eq_ok]
  constructor
  · rintro ⟨settings, loaded, manifest, loaded', references, loaded'', made⟩
    cases made
    exact ⟨loaded, loaded', loaded''⟩
  · rintro ⟨loaded, loaded', loaded''⟩
    exact ⟨_, loaded, _, loaded', _, loaded'', rfl⟩

theorem Loads.unique {other : Subject} (loads : Loads files arguments subject)
    (loads' : Loads files arguments other) : subject = other :=
  Except.ok.inj ((subjectOf_eq_ok_iff.mpr loads).symm.trans (subjectOf_eq_ok_iff.mpr loads'))

/-- Nothing has failed once there are findings. -/
theorem not_fails_of_found {sets : DependencySets} (loads : Loads files arguments subject)
    (found : subject.found files arguments = .ok sets) : ¬ Fails files arguments := by
  intro fails
  cases fails with
  | settings fault => simp [loads.settings] at fault
  | manifest fault => simp [loads.manifest] at fault
  | references fault => simp [loads.references] at fault
  | classification loads' fault =>
      obtain rfl := loads.unique loads'
      simp [found] at fault

/-- The files change once something is found, and first by the cache. -/
theorem audit_eq (files : FileSystem) (arguments : Arguments) (colored : Bool) (subject : Subject) :
    audit files arguments colored subject =
      match subject.found files arguments with
      | .error error => .failed files (.audit error)
      | .ok sets =>
          conclude (subject.afterCache files arguments) arguments subject colored
            (.ofSets sets) := by
  rw [audit, Subject.found, Subject.afterCache, Subject.cachePath?]
  cases subject.settings.cache.map arguments.project.join with
  | none => rfl
  | some path => rfl

/-- Only the cache and the directories missing above it change by storing it. -/
theorem touches_afterCache (subject : Subject) (files : FileSystem) (arguments : Arguments) :
    files.Touches (subject.afterCache files arguments) (subject.cachePath? arguments).toList
      ((subject.cachePath? arguments).toList.flatMap Path.parents) := by
  rw [Subject.afterCache]
  cases subject.cachePath? arguments with
  | none => exact .refl files
  | some path =>
      rw [Option.toList_some, List.flatMap_singleton]
      exact FileSystem.touches_store files path _

/-- A report that cannot be written is a failure, and is not printed. -/
theorem conclude_of_unwritten {report : Report} {changed : FileSystem} {error : AuditError}
    (unwritten : report.save files (subject.reportPath arguments) = (changed, .error error)) :
    conclude files arguments subject colored report = .failed changed (.audit error) := by
  unfold Subject.reportPath at unwritten
  unfold conclude
  rw [unwritten]

/-- A report that is written is printed, and a check fails if there are findings. -/
theorem conclude_of_written (colored : Bool) {report : Report} {changed : FileSystem}
    (written : report.save files (subject.reportPath arguments) = (changed, .ok ())) :
    ∃ failures error, conclude files arguments subject colored report =
      ⟨changed, printed arguments subject.settings colored report, failures, error⟩ ∧
        (error.isSome = true ↔ arguments.check = true ∧ report.hasFindings = true) := by
  unfold Subject.reportPath at written
  unfold conclude
  rw [written]
  dsimp only
  have checked : (arguments.check && !report.failures.isEmpty) = true ↔
      arguments.check = true ∧ report.hasFindings = true := by
    rw [Bool.and_eq_true, Bool.not_eq_true', List.isEmpty_eq_false_iff, ne_eq,
      report.failures_eq_nil_iff, Bool.not_eq_false]
  by_cases failing : (arguments.check && !report.failures.isEmpty) = true
  · rw [if_pos failing]
    exact ⟨_, _, rfl, iff_of_true rfl (checked.mp failing)⟩
  · rw [if_neg failing]
    exact ⟨_, _, rfl, iff_of_false Bool.false_ne_true (mt checked.mpr failing)⟩

theorem exitCode_eq_one_iff (outcome : Outcome) :
    outcome.exitCode = 1 ↔ outcome.error.isSome = true := by
  rw [Outcome.exitCode]
  split <;> simp [*]

/-- What the report adds to the files of a run. -/
theorem touches_save (files : FileSystem) (report : Report) (path : Path) :
    files.Touches (report.save files path).1 [path] path.parents :=
  FileSystem.touches_store files path _

/-- What a run comes to when it has findings. -/
theorem concludes_conclude (files : FileSystem) (arguments : Arguments) (colored : Bool)
    (subject : Subject) (sets : DependencySets) :
    Concludes files arguments colored subject sets
      (conclude (subject.afterCache files arguments) arguments subject colored (.ofSets sets)) := by
  have cached := touches_afterCache subject files arguments
  have reported := touches_save (subject.afterCache files arguments) (.ofSets sets)
    (subject.reportPath arguments)
  rcases stored : (Report.ofSets sets).save (subject.afterCache files arguments)
    (subject.reportPath arguments) with ⟨changed, saved⟩
  rw [stored] at reported
  have touches : files.Touches changed (subject.targets arguments)
      ((subject.targets arguments).flatMap Path.parents) := by
    refine (cached.mono ?_ ?_).trans (reported.mono ?_ ?_) <;> simp [Subject.targets]
  cases saved with
  | error error =>
      have unwritten : ¬ subject.Reports files arguments sets := by
        rw [Subject.Reports, stored]
        simp
      rw [conclude_of_unwritten stored]
      exact ⟨touches, fun written => absurd written unwritten,
        fun written => absurd written unwritten, fun _ => rfl, iff_of_true rfl (.inl unwritten)⟩
  | ok done =>
      have written : subject.Reports files arguments sets := by
        rw [Subject.Reports, stored]
      obtain ⟨failures, error, same, failing⟩ := conclude_of_written colored stored
      rw [same]
      refine ⟨touches, fun _ => ?_, fun _ => rfl, absurd written, ?_⟩
      · exact FileSystem.read?_of_store (Report.store_of_saved stored)
      · rw [exitCode_eq_one_iff, failing, Report.hasFindings_iff]
        simp [written, Report.ofSets]

/-- A run that gets past all it needs has findings. -/
theorem exists_found_of_not_fails (sound : ¬ Fails files arguments) :
    ∃ subject sets, Loads files arguments subject ∧ subject.found files arguments = .ok sets := by
  cases settings : settingsOf files arguments with
  | error error => exact absurd (.settings settings) sound
  | ok settings' =>
    cases manifest : Manifest.load files arguments.manifest with
    | error error => exact absurd (.manifest manifest) sound
    | ok manifest' =>
      cases references : arguments.source.references files with
      | error error => exact absurd (.references references) sound
      | ok references' =>
        have loads : Loads files arguments ⟨settings', manifest', references'⟩ :=
          ⟨settings, manifest, references⟩
        cases found : Subject.found ⟨settings', manifest', references'⟩ files arguments with
        | error error => exact absurd (.classification loads found) sound
        | ok sets => exact ⟨_, sets, loads, found⟩

theorem run_of_loads (loads : Loads files arguments subject) :
    run files arguments colored = audit files arguments colored subject := by
  rw [run, subjectOf_eq_ok_iff.mpr loads]

/-- Where something fails that a run needs, the run ends with the files it began with. -/
theorem run_of_fails (fails : Fails files arguments) :
    ∃ error, run files arguments colored = .failed files error := by
  cases loaded : subjectOf files arguments with
  | error error => exact ⟨error, run_of_unexamined loaded⟩
  | ok subject =>
      have loads := subjectOf_eq_ok_iff.mp loaded
      cases found : subject.found files arguments with
      | ok sets => exact absurd fails (not_fails_of_found loads found)
      | error error =>
          rw [run_of_loads loads, audit_eq, found]
          exact ⟨_, rfl⟩

/-- **A run is all or nothing up to its findings.**  If anything that it needs fails, it fails, and
prints and changes nothing.  Otherwise it changes the cache, the report and the directories
missing above them, and fails on account of the report only. -/
theorem run_leaves_nothing_or_concludes (files : FileSystem) (arguments : Arguments)
    (colored : Bool) :
    (Fails files arguments → LeavesNothing files (run files arguments colored)) ∧
      (¬ Fails files arguments → ∃ subject sets, Loads files arguments subject ∧
        subject.found files arguments = .ok sets ∧
        Concludes files arguments colored subject sets (run files arguments colored)) := by
  constructor
  · intro fails
    obtain ⟨error, left⟩ := @run_of_fails files arguments colored fails
    rw [left]
    exact leavesNothing_failed files error
  · intro sound
    obtain ⟨subject, sets, loads, found⟩ := exists_found_of_not_fails sound
    refine ⟨subject, sets, loads, found, ?_⟩
    rw [run_of_loads loads, audit_eq, found]
    exact concludes_conclude files arguments colored subject sets

end Runs

namespace Blocked

/-! The cache has a directory in its place, and the directory of the report is missing. -/

def manifestText : String :=
  "\x7b\"configurations\":[\x7b\"name\":\"c\",\"dependencies\":[\"g:lib:1\"]\x7d]\x7d"

def files : FileSystem where
  entries := [(["m.json"], .file ⟨Text.Utf8.encodeString manifestText, 5⟩),
    (["graphs"], .directory), (["cache"], .directory)]
  workingDirectory := []
  clock := 6

/-- There is an older report, but no manifest. -/
def older : FileSystem where
  entries := [(["out", "r.yaml"], .file ⟨[7], 5⟩), (["out"], .directory)]
  workingDirectory := []
  clock := 6

def arguments (check : Bool) : Arguments where
  project := ⟨"."⟩
  manifest := ⟨"m.json"⟩
  source := .reports ⟨"graphs"⟩
  settingsFile := none
  output := some ⟨"out/r.yaml"⟩
  format := none
  check
  cache := some ⟨"cache"⟩
  configurations := ["c"]
  classpathConfiguration := some "c"
  ignore := []
  sequential := false
  verbose := false
  quiet := false

def subject : Subject where
  settings := (arguments true).override .default
  manifest := ⟨"", [⟨"c", [], ["g:lib:1"], []⟩]⟩
  references := ⟨.empty, .empty⟩

def sets : DependencySets := ⟨.empty, .empty, .empty, .ofList ["g:lib"]⟩

theorem loads (check : Bool) : Loads files (arguments check) subject where
  settings := by
    have absent : Settings.ofDefaultLocations files (arguments check).project = .ok .default :=
      Settings.ofDefaultLocations_eq_default (by cases check <;> decide +kernel)
    rw [settingsOf]
    dsimp only [arguments] at absent ⊢
    rw [absent]
    rfl
  manifest := Outcome.toOption_eq_some.mp (by cases check <;> decide +kernel)
  references := Outcome.toOption_eq_some.mp (by cases check <;> decide +kernel)

theorem found (check : Bool) : subject.found files (arguments check) = .ok sets := by
  have declared : subject.manifest.declared subject.settings.configurations =
      .ok (.ofList ["g:lib"]) := by cbv
  have empty : Classification.classPath subject.settings subject.manifest = .ok [] :=
    Outcome.toOption_eq_some.mp (by decide +kernel)
  have judged : Classification.judge subject.settings subject.manifest subject.references .empty =
      .ok sets := by
    refine Outcome.toOption_eq_some.mp ?_
    simp only [Classification.judge, declared]
    decide +kernel
  have path : subject.cachePath? (arguments check) = some ⟨"./cache"⟩ := by
    cases check <;> decide +kernel
  rw [Subject.found, path]
  dsimp only
  rw [Subject.examineWith, Classification.classifyWith, empty]
  exact judged

theorem reports (check : Bool) : subject.Reports files (arguments check) sets := by
  have written : ((subject.afterCache files (arguments check)).store
      (subject.reportPath (arguments check))
      (Text.Utf8.encode (Report.ofSets sets).toYaml)).2 = true := by
    cases check <;> decide +kernel
  rw [Subject.Reports, Report.save]
  simp only [written, if_true]

theorem fails (check : Bool) : Fails older (arguments check) := by
  have missing : older.readText? (arguments check).manifest = none := by
    cases check <;> decide +kernel
  exact .manifest (by rw [Manifest.load, missing, Option.bind_none])

end Blocked

/-- Without the manifest the older report stays.  With it the report is written although the cache
is not, and the dependency that is not used fails the run if a check is asked for. -/
theorem run_leaves_nothing_or_concludes_of_blocked :
    LeavesNothing Blocked.older (run Blocked.older (Blocked.arguments true) false) ∧
      (run Blocked.files (Blocked.arguments false) false).files.entryAt? ["cache"] =
        some .directory ∧
      (run Blocked.files (Blocked.arguments false) false).exitCode ≠ 1 ∧
      (run Blocked.files (Blocked.arguments true) false).exitCode = 1 := by
  have concludes : ∀ check, Concludes Blocked.files (Blocked.arguments check) false Blocked.subject
      Blocked.sets (run Blocked.files (Blocked.arguments check) false) := by
    intro check
    obtain ⟨subject, sets, loads, found, concludes⟩ :=
      (run_leaves_nothing_or_concludes Blocked.files (Blocked.arguments check) false).2
        (not_fails_of_found (Blocked.loads check) (Blocked.found check))
    obtain rfl := loads.unique (Blocked.loads check)
    obtain rfl := Except.ok.inj (found.symm.trans (Blocked.found check))
    exact concludes
  refine ⟨(run_leaves_nothing_or_concludes _ _ _).1 (Blocked.fails true), ?_, ?_, ?_⟩
  · exact (concludes false).touches.grown.entryAt?_directory rfl
  · rw [ne_eq, (concludes false).exits, not_or, not_not]
    exact ⟨Blocked.reports false, fun checked => Bool.false_ne_true checked.1⟩
  · exact (concludes true).exits.mpr (.inr ⟨rfl, "g:lib", by decide +kernel⟩)

end DependencyAudit.CommandLine
