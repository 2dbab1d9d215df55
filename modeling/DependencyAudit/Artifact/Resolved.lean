/-
# DependencyAudit.Artifact.Resolved -- artifacts with the files behind them

Resolving a build's dependencies gives artifacts, each with the file that backs
it.  An artifact stands for the dependency it was resolved from, by default the
one of its own identity.  Only jars and directories of classes can be looked into:
`container?` says which of the two a path is, and a directory is one whatever its
name (`container?_of_isDirectory`).
-/
import DependencyAudit.Artifact.Dependency
import DependencyAudit.Document.Basic
import DependencyAudit.FileSystem.Basic
import DependencyAudit.Json.Basic

namespace DependencyAudit

set_option autoImplicit false

/-- What holds classes. -/
inductive Container where
  | jar
  | directory
deriving Repr, DecidableEq

namespace Container

/-- The container that a path is taken for: a directory is one, and otherwise the
extension decides, a path without one standing for a directory. -/
def of? (files : FileSystem) (path : Path) : Option Container :=
  if files.isDirectory path then some .directory
  else match path.extension? with
    | none => some .directory
    | some _ => if path.hasExtension "jar" then some .jar else none

/-- A directory is a container, whatever its name. -/
theorem of?_of_isDirectory {files : FileSystem} {path : Path}
    (present : files.isDirectory path = true) : of? files path = some .directory := by
  simp [of?, present]

end Container

/-- An artifact with the file that backs it. -/
structure ResolvedArtifact where
  id : ArtifactId
  file : Path
  /-- The dependency it was resolved from, where that differs. -/
  dependency : Option String
deriving Repr, DecidableEq

namespace ResolvedArtifact

/-- The name of the dependency that the artifact stands for. -/
def dependencyName (artifact : ResolvedArtifact) : String :=
  match artifact.dependency with
  | some dependency => Dependency.normalize dependency
  | none => artifact.id.dependencyName

/-- What the artifact's file is. -/
def container? (files : FileSystem) (artifact : ResolvedArtifact) : Option Container :=
  Container.of? files artifact.file

/-! ## Documents -/

/-- The identity that a document spells. -/
def idOfDocument (document : Document) : Decoder ArtifactId := do
  Decoder.ofOption (ArtifactId.ofString? (← document.text)).toOption

def pathOfDocument (document : Document) : Decoder Path := do
  return ⟨← document.text⟩

/-- The artifact that a document describes; its identity and its file must be
there. -/
def ofDocument (document : Document) : Decoder ResolvedArtifact := do
  match ← document.fields [["id"], ["file"], ["dependency"]] with
  | [id, file, dependency] =>
      return {
        id := ← Document.fieldOf idOfDocument id
        file := ← Document.fieldOf pathOfDocument file
        dependency := ← Document.fieldOr none Document.optionalText dependency }
  | _ => Decoder.refuse

/-- The artifact as JSON. -/
def toJson (artifact : ResolvedArtifact) : Json :=
  .object ([("id", .string artifact.id.display), ("file", .string artifact.file.text)] ++
    (artifact.dependency.map fun text => ("dependency", Json.string text)).toList)

/-! ## Facts -/

/-- An artifact whose file is a directory is a container. -/
theorem container?_of_isDirectory {files : FileSystem} {artifact : ResolvedArtifact}
    (present : files.isDirectory artifact.file = true) :
    artifact.container? files = some .directory :=
  Container.of?_of_isDirectory present

end ResolvedArtifact

end DependencyAudit
