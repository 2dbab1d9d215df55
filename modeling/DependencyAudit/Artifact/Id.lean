/-
# DependencyAudit.Artifact.Id -- identities of artifacts

An artifact is a published module (`group:name`, or `group:name:version`) or a
project of the build at hand (`project :name`).  `ofString?` reads every
spelling in use: `project(':name')`, `project :name`, `:name`, a bare name, and
a module with or without version.  `display` writes the one spelling that all of
them meet in, and `dependencyName` drops the version, so that an upgrade changes
no report (`dependencyName_module_version`).  Without a version both are the
same (`display_eq_dependencyName_of_unversioned`).
-/
import DependencyAudit.Text.Blank
import DependencyAudit.Text.Split

namespace DependencyAudit

open Text

set_option autoImplicit false

/-- The identity of an artifact.  Modules come before projects. -/
inductive ArtifactId where
  | module (group name : String) (version : Option String)
  | project (name : String)
deriving Repr, DecidableEq, Ord

/-- Why a text is no identity. -/
inductive ArtifactIdError where
  | empty
  | invalid (text : String)
deriving Repr, DecidableEq

namespace ArtifactIdError

def message : ArtifactIdError → String
  | .empty => "empty artifact identifier"
  | .invalid text => "invalid artifact identifier '" ++ text ++ "'"

end ArtifactIdError

namespace ArtifactId

/-! ## Writing -/

/-- The project of a name, which may be given with leading colons. -/
def ofProjectName (name : List Char) : ArtifactId :=
  .project (String.ofList (name.dropWhile (· = ':')))

/-- The name that reports and build files use. -/
def dependencyName : ArtifactId → String
  | .module group name _ => group ++ ":" ++ name
  | .project name => "project :" ++ name

/-- The full spelling. -/
def display : ArtifactId → String
  | .module group name (some version) => group ++ ":" ++ name ++ ":" ++ version
  | .module group name none => group ++ ":" ++ name
  | .project name => "project :" ++ name

/-! ## Reading -/

def isQuote (c : Char) : Bool :=
  c = '\x27' || c = '"'

/-- The name between the parentheses of `project(...)`. -/
def callArgument (rest : List Char) : List Char :=
  trimBy isQuote (dropBack (· = ')') rest)

/-- A module of at least two parts; an empty version is none. -/
def ofParts? : List (List Char) → Option ArtifactId
  | group :: name :: more =>
      let group := trimBlank group
      let name := trimBlank name
      if group.isEmpty || name.isEmpty then none
      else
        let version := (more.head?.map trimBlank).filter fun text => !text.isEmpty
        some (.module (String.ofList group) (String.ofList name) (version.map String.ofList))
  | _ => none

/-- The identity that a text without outer blanks spells. -/
def ofTrimmed? (cs : List Char) : Except ArtifactIdError ArtifactId :=
  if cs.isEmpty then .error .empty
  else match after? "project(".toList cs with
    | some rest => .ok (ofProjectName (callArgument rest))
    | none =>
      match after? "project ".toList cs with
      | some rest => .ok (ofProjectName (trimBlank rest))
      | none =>
        if ':' ∉ cs then .ok (ofProjectName cs)
        else if cs.head? = some ':' then .ok (ofProjectName cs)
        else match ofParts? (splitOn ':' cs) with
          | some id => .ok id
          | none => .error (.invalid (String.ofList cs))

/-- The identity that a text spells. -/
def ofString? (text : String) : Except ArtifactIdError ArtifactId :=
  ofTrimmed? (trimBlank text.toList)

/-! ## Order -/

/-- Identities in order, each once. -/
def sorted (ids : List ArtifactId) : List ArtifactId :=
  (ids.mergeSort fun first second => (compare first second).isLE).eraseDups

/-! ## Facts -/

theorem dependencyName_of_project (name : String) :
    (ArtifactId.project name).dependencyName = "project :" ++ name := rfl

theorem dependencyName_module_version (group name : String) (version other : Option String) :
    (ArtifactId.module group name version).dependencyName =
      (ArtifactId.module group name other).dependencyName := rfl

theorem display_eq_dependencyName_of_unversioned (group name : String) :
    (ArtifactId.module group name none).display =
      (ArtifactId.module group name none).dependencyName := rfl

end ArtifactId

end DependencyAudit
