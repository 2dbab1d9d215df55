/-
# DependencyAudit.Manifest.Reader -- manifests from documents and files

A manifest is read from a document field by field; what is not given is empty.  A
file's extension says what format it has, and where it says nothing YAML is tried
before JSON.
-/
import DependencyAudit.Document.OfJson
import DependencyAudit.Document.OfToml
import DependencyAudit.Document.OfYaml
import DependencyAudit.Manifest.Basic

namespace DependencyAudit

set_option autoImplicit false

/-- The configuration that a document describes. -/
def Configuration.ofDocument (document : Document) : Decoder Configuration := do
  match ← document.fields [["name"], ["extendsFrom"], ["dependencies"], ["artifacts"]] with
  | [name, extendsFrom, dependencies, artifacts] =>
      return {
        name := ← Document.fieldOr "" Document.text name
        extendsFrom := ← Document.fieldOr [] Document.texts extendsFrom
        dependencies := ← Document.fieldOr [] Document.texts dependencies
        artifacts :=
          ← Document.fieldOr [] (Document.listOf ResolvedArtifact.ofDocument) artifacts }
  | _ => Decoder.refuse

namespace Manifest

/-- The manifest that a document describes. -/
def ofDocument (document : Document) : Decoder Manifest := do
  match ← document.fields [["project"], ["configurations"]] with
  | [project, configurations] =>
      return {
        project := ← Document.fieldOr "" Document.text project
        configurations :=
          ← Document.fieldOr [] (Document.listOf Configuration.ofDocument) configurations }
  | _ => Decoder.refuse

/-- The manifest in a text, whose format follows from the extension of its file. -/
def ofText? (extension : Option String) (text : List Char) : Option Manifest :=
  let yaml := (Document.ofYamlText text).bind (·.decode ofDocument)
  let json := (Document.ofJsonText text).bind (·.decode ofDocument)
  if extension = some "yml" ∨ extension = some "yaml" then yaml
  else if extension = some "json" then json
  else if extension = some "toml" then (Document.ofTomlText text).bind (·.decode ofDocument)
  else yaml.or json

/-- The manifest in a file. -/
def load (files : FileSystem) (path : Path) : Except AuditError Manifest :=
  match (files.readText? path).bind (ofText? path.extension?) with
  | some manifest => .ok manifest
  | none => .error (.manifest path)

end Manifest

end DependencyAudit
