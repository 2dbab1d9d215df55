/-
# DependencyAudit.Settings -- what a user can set

`Settings` say which configurations are audited and against which artifacts,
which dependencies are exempt from findings, and how the report is written.  What a
document leaves out keeps its default.

A file's extension says what format it has, and where it says nothing YAML is tried
before TOML.  `ofDefaultLocations` takes the first of the usual files that exists,
or all defaults (`ofDefaultLocations_eq_default`).
-/
import DependencyAudit.Artifact.Dependency
import DependencyAudit.Document.OfToml
import DependencyAudit.Document.OfYaml
import DependencyAudit.FileSystem.Basic
import DependencyAudit.NameSet

namespace DependencyAudit

set_option autoImplicit false

/-- How the report is written. -/
structure ReportSettings where
  /-- Where the report is saved. -/
  output : Path
  /-- The name of the format that is printed. -/
  format : String
  /-- Whether build-file lines are suggested. -/
  suggestions : Bool
deriving Repr, DecidableEq

structure Settings where
  /-- The configurations whose declarations are audited. -/
  configurations : List String
  /-- The configuration whose artifacts provide classes. -/
  classpathConfiguration : String
  /-- Configurations whose dependencies leave no trace in classes. -/
  sourceOnlyConfigurations : List String
  /-- Dependencies exempt from all findings. -/
  ignore : List String
  /-- Dependencies exempt from findings of undeclared use. -/
  ignoreImplicit : List String
  /-- Dependencies exempt from findings of no use. -/
  ignoreUnused : List String
  report : ReportSettings
  parallel : Bool
  /-- Where listings of artifacts are kept between runs. -/
  cache : Option Path
deriving Repr, DecidableEq

namespace Settings

def defaultReport : ReportSettings where
  output := ⟨"build/reports/dependency-report.yaml"⟩
  format := "terminal"
  suggestions := true

/-- What holds unless it is set. -/
def default : Settings where
  configurations := ["implementation"]
  classpathConfiguration := "compileClasspath"
  sourceOnlyConfigurations := ["compileOnly", "annotationProcessor"]
  ignore := []
  ignoreImplicit := ["org.slf4j:slf4j-api"]
  ignoreUnused := ["javax.annotation:javax.annotation-api"]
  report := defaultReport
  parallel := true
  cache := none

/-! ## Exemptions -/

/-- The dependencies exempt from findings of undeclared use, as reports spell
them. -/
def implicitExemptions (settings : Settings) : NameSet :=
  NameSet.ofList ((settings.ignore ++ settings.ignoreImplicit).map Dependency.normalize)

/-- The dependencies exempt from findings of no use, as reports spell them. -/
def unusedExemptions (settings : Settings) : NameSet :=
  NameSet.ofList ((settings.ignore ++ settings.ignoreUnused).map Dependency.normalize)

/-! ## Documents -/

/-- The settings of the report that a document gives. -/
def reportOfDocument (document : Document) : Decoder ReportSettings := do
  match ← document.fields [["output"], ["format"], ["suggestions"]] with
  | [output, format, suggestions] =>
      return {
        output := ← Document.fieldOr defaultReport.output (Path.mk <$> ·.text) output
        format := ← Document.fieldOr defaultReport.format Document.text format
        suggestions := ← Document.fieldOr defaultReport.suggestions Document.flag suggestions }
  | _ => Decoder.refuse

/-- The names of the settings. -/
def names : List (List String) :=
  [["configurations"], ["classpath_configuration"], ["source_only_configurations"], ["ignore"],
    ["ignore_implicit"], ["ignore_unused"], ["report"], ["parallel"], ["cache"]]

/-- The settings that a document gives. -/
def ofDocument (document : Document) : Decoder Settings := do
  match ← document.fields names with
  | [configurations, classpath, sourceOnly, ignore, ignoreImplicit, ignoreUnused, report, parallel,
      cache] =>
      return {
        configurations := ← Document.fieldOr default.configurations Document.texts configurations
        classpathConfiguration :=
          ← Document.fieldOr default.classpathConfiguration Document.text classpath
        sourceOnlyConfigurations :=
          ← Document.fieldOr default.sourceOnlyConfigurations Document.texts sourceOnly
        ignore := ← Document.fieldOr default.ignore Document.texts ignore
        ignoreImplicit := ← Document.fieldOr default.ignoreImplicit Document.texts ignoreImplicit
        ignoreUnused := ← Document.fieldOr default.ignoreUnused Document.texts ignoreUnused
        report := ← Document.fieldOr default.report reportOfDocument report
        parallel := ← Document.fieldOr default.parallel Document.flag parallel
        cache := ← Document.fieldOr default.cache
          (fun document => return (← document.optionalText).map Path.mk) cache }
  | _ => Decoder.refuse

end Settings

/-! ## Files -/

/-- Why settings cannot be had from a file. -/
inductive SettingsFault where
  | unreadable
  | badYaml
  | badToml
  | bad
deriving Repr, DecidableEq

structure SettingsError where
  file : Path
  fault : SettingsFault
deriving Repr, DecidableEq

def SettingsFault.message : SettingsFault → String
  | .unreadable => "Failed to read config file: "
  | .badYaml => "Failed to parse YAML config: "
  | .badToml => "Failed to parse TOML config: "
  | .bad => "Failed to parse config file: "

def SettingsError.message (error : SettingsError) : String :=
  error.fault.message ++ error.file.text

namespace Settings

/-- The settings in a text, whose format follows from the extension of its file. -/
def ofText (extension : Option String) (text : List Char) : Except SettingsFault Settings :=
  let yaml := (Document.ofYamlText text).bind (·.decode ofDocument)
  let toml := (Document.ofTomlText text).bind (·.decode ofDocument)
  if extension = some "yml" ∨ extension = some "yaml" then yaml.elim (.error .badYaml) .ok
  else if extension = some "toml" then toml.elim (.error .badToml) .ok
  else (yaml.or toml).elim (.error .bad) .ok

/-- The settings in a file. -/
def ofFile (files : FileSystem) (path : Path) : Except SettingsError Settings :=
  ((files.readText? path).elim (.error .unreadable) (ofText path.extension?)).mapError
    (SettingsError.mk path)

/-- The files that settings are looked for in. -/
def defaultNames : List Path :=
  [⟨".exactdeps.yml"⟩, ⟨".exactdeps.yaml"⟩, ⟨".exactdeps.toml"⟩, ⟨"exactdeps.yml"⟩,
    ⟨"exactdeps.yaml"⟩, ⟨"exactdeps.toml"⟩]

/-- The settings of a project: from the first of the usual files that exists, or the
defaults. -/
def ofDefaultLocations (files : FileSystem) (root : Path) : Except SettingsError Settings :=
  match (defaultNames.map root.join).find? files.exists with
  | some path => ofFile files path
  | none => .ok default

/-! ## Facts -/

/-- Without any of the usual files the defaults hold. -/
theorem ofDefaultLocations_eq_default {files : FileSystem} {root : Path}
    (absent : ∀ name ∈ defaultNames, files.exists (root.join name) = false) :
    ofDefaultLocations files root = .ok default := by
  have none_found : (defaultNames.map root.join).find? files.exists = none := by
    rw [List.find?_eq_none]
    intro path listed
    obtain ⟨name, known, rfl⟩ := List.mem_map.mp listed
    simp [absent name known]
  simp [ofDefaultLocations, none_found]

end Settings

end DependencyAudit
