/-
# DependencyAudit.Artifact.Dependency -- dependencies as build files spell them

A build file and a report name a dependency by a text.  `normalize` turns every
spelling into the one of reports, so that two spellings of one dependency can
be compared (`normalize_of_ok`); a text that spells no identity stays as it is,
trimmed (`normalize_of_error`).  `suggestion` is the build-file line that
declares a dependency.
-/
import DependencyAudit.Artifact.Id

namespace DependencyAudit.Dependency

open DependencyAudit.Text

set_option autoImplicit false

/-- Whether a text names a project of the build: `project :x`, `project(':x')`
or a bare name. -/
def isProject (dependency : String) : Bool :=
  (after? "project :".toList dependency.toList).isSome ||
    (after? "project(".toList dependency.toList).isSome || decide (':' ∉ dependency.toList)

/-- The spelling of reports: no version, and `project :name` for projects. -/
def normalize (dependency : String) : String :=
  match ArtifactId.ofString? dependency with
  | .ok id => id.dependencyName
  | .error _ => trimmed dependency

/-- Without any number of repetitions of the word `project` in front. -/
def dropProjectWords : List Char → List Char
  | 'p' :: 'r' :: 'o' :: 'j' :: 'e' :: 'c' :: 't' :: rest => dropProjectWords rest
  | cs => cs

/-- The bare name in any spelling of a project. -/
def projectName (dependency : List Char) : List Char :=
  let argument := (trimBlank (dropProjectWords dependency)).dropWhile (· = '(')
  (trimBy ArtifactId.isQuote (dropBack (· = ')') argument)).dropWhile (· = ':')

/-- The text that a build file declares a dependency by. -/
def declaration (dependency : String) : String :=
  if isProject dependency then
    "project(':" ++ String.ofList (projectName dependency.toList) ++ "')"
  else dependency

/-- The build-file line that declares a dependency. -/
def suggestion (dependency : String) : String :=
  "implementation " ++ declaration dependency

/-! ## Facts -/

theorem normalize_of_ok {dependency : String} {id : ArtifactId}
    (spelled : ArtifactId.ofString? dependency = .ok id) :
    normalize dependency = id.dependencyName := by
  rw [normalize, spelled]

theorem normalize_of_error {dependency : String} {error : ArtifactIdError}
    (unspelled : ArtifactId.ofString? dependency = .error error) :
    normalize dependency = trimmed dependency := by
  rw [normalize, unspelled]

end DependencyAudit.Dependency
