/-
# DependencyAudit.CommandLine.Run -- an audit from the command line

A run loads the settings, the manifest and the references, and classifies the
dependencies.  If all of this succeeds it stores the cache, if one is set, and the
report; then it prints the report and, where asked to, checks that there are no
findings.

Relative paths of the cache and the report start at the project.  A run that fails
before it has findings changes no file (`run_of_unexamined`); a cache that cannot
be stored does not fail the run.
-/
import DependencyAudit.CommandLine.Arguments
import DependencyAudit.CommandLine.Help
import DependencyAudit.Cache.Stored
import DependencyAudit.Manifest.Reader
import DependencyAudit.References.Compiled
import DependencyAudit.References.Report

namespace DependencyAudit.CommandLine

set_option autoImplicit false

/-- Why a run fails. -/
inductive RunError where
  | settings (error : SettingsError)
  | audit (error : AuditError)
  /-- The check has found so many failures. -/
  | failures (count : Nat) (project : String)
deriving Repr, DecidableEq

def RunError.message (cause : String) : RunError → String
  | .settings error => error.message
  | .audit error => error.message cause
  | .failures count project =>
      "Found " ++ toString count ++ " dependency problems in '" ++ project ++ "'"

/-- What a run leaves behind. -/
structure Outcome where
  files : FileSystem
  printed : String
  /-- The findings of a check. -/
  failures : List String
  error : Option RunError

namespace Outcome

/-- A run that fails before anything is printed. -/
def failed (files : FileSystem) (error : RunError) : Outcome :=
  ⟨files, "", [], some error⟩

/-- The code that the program exits with. -/
def exitCode (outcome : Outcome) : Nat :=
  if outcome.error.isSome then 1 else 0

end Outcome

/-! ## Input -/

/-- The settings with what the command line puts in their place. -/
def Arguments.override (arguments : Arguments) (settings : Settings) : Settings :=
  { settings with
    configurations :=
      if arguments.configurations.isEmpty then settings.configurations else arguments.configurations
    classpathConfiguration :=
      arguments.classpathConfiguration.getD settings.classpathConfiguration
    ignore := settings.ignore ++ arguments.ignore
    report := { settings.report with
      output := arguments.output.getD settings.report.output
      format := (arguments.format.map ReportFormat.name).getD settings.report.format }
    parallel := settings.parallel && !arguments.sequential
    cache := arguments.cache.or settings.cache }

/-- The settings of a run. -/
def settingsOf (files : FileSystem) (arguments : Arguments) : Except SettingsError Settings :=
  let found := match arguments.settingsFile with
    | some path => Settings.ofFile files path
    | none => Settings.ofDefaultLocations files arguments.project
  found.map arguments.override

/-- The references that a source gives. -/
def CodeSource.references (files : FileSystem) : CodeSource → Except AuditError References
  | .classes path => (CompiledOutput.at files path).map CompiledOutput.references
  | .reports directory => ReferenceReport.ofDirectory files directory

/-- What a run works with. -/
structure Subject where
  settings : Settings
  manifest : Manifest
  references : References

/-- Loads all that a run works with. -/
def subjectOf (files : FileSystem) (arguments : Arguments) : Except RunError Subject := do
  let settings ← (settingsOf files arguments).mapError RunError.settings
  let manifest ← (Manifest.load files arguments.manifest).mapError RunError.audit
  let references ← (arguments.source.references files).mapError RunError.audit
  return ⟨settings, manifest, references⟩

/-! ## Output -/

/-- What is printed of a report. -/
def printed (arguments : Arguments) (settings : Settings) (colored : Bool) (report : Report) :
    String :=
  if arguments.quiet then ""
  else
    let format := (ReportFormat.ofName? settings.report.format).getD .terminal
    report.print ⟨format, settings.report.suggestions, colored⟩

/-- Stores and prints a report, and checks it where asked to. -/
def conclude (files : FileSystem) (arguments : Arguments) (subject : Subject) (colored : Bool)
    (report : Report) : Outcome :=
  let (changed, saved) := report.save files (arguments.project.join subject.settings.report.output)
  match saved with
  | .error error => .failed changed (.audit error)
  | .ok () =>
      let printed := printed arguments subject.settings colored report
      if arguments.check && !report.failures.isEmpty then
        ⟨changed, printed, report.failures,
          some (.failures report.failures.length subject.manifest.project)⟩
      else ⟨changed, printed, [], none⟩

/-! ## Runs -/

/-- Classifies the dependencies, with a cache where one is set, and concludes. -/
def audit (files : FileSystem) (arguments : Arguments) (colored : Bool) (subject : Subject) :
    Outcome :=
  match subject.settings.cache.map arguments.project.join with
  | none =>
      match Classification.classify subject.settings files subject.manifest subject.references with
      | .error error => .failed files (.audit error)
      | .ok sets => conclude files arguments subject colored (.ofSets sets)
  | some path =>
      let (cache, result) := Classification.classifyWith (Cache.loadOr files path) subject.settings
        files subject.manifest subject.references
      match result with
      | .error error => .failed files (.audit error)
      | .ok sets =>
          let (changed, _) := (cache.prune files).save files path
          conclude changed arguments subject colored (.ofSets sets)

/-- A whole run. -/
def run (files : FileSystem) (arguments : Arguments) (colored : Bool) : Outcome :=
  match subjectOf files arguments with
  | .error error => .failed files error
  | .ok subject => audit files arguments colored subject

/-! ## Facts -/

/-- A run that cannot load what it works with changes and prints nothing. -/
theorem run_of_unexamined {files : FileSystem} {arguments : Arguments} {colored : Bool}
    {error : RunError} (unexamined : subjectOf files arguments = .error error) :
    run files arguments colored = .failed files error := by
  simp [run, unexamined]

end DependencyAudit.CommandLine
