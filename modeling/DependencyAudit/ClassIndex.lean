/-
# DependencyAudit.ClassIndex -- which artifact provides which class

The index is filled artifact by artifact, in the order of the class path.  A class
that several artifacts hold belongs to the last of them (`artifactFor_insert`); an
identity that occurs several times holds the classes of all its occurrences
(`classesOf_insert_self`), and stands for the dependency of the last
(`dependencyOf_insert_self`).
-/
import DependencyAudit.Artifact.Resolved
import DependencyAudit.Assoc
import DependencyAudit.NameSet

namespace DependencyAudit

set_option autoImplicit false

structure ClassIndex where
  /-- The artifact that provides each class. -/
  owners : Assoc String ArtifactId
  /-- The classes that each artifact holds. -/
  listings : Assoc ArtifactId NameSet
  /-- The dependency that each artifact stands for. -/
  dependencies : Assoc ArtifactId String

namespace ClassIndex

/-- The index of nothing. -/
def empty : ClassIndex := ⟨.empty, .empty, .empty⟩

/-! ## Questions -/

def artifactFor (index : ClassIndex) (className : String) : Option ArtifactId :=
  index.owners.get? className

def classesOf (index : ClassIndex) (id : ArtifactId) : Option NameSet :=
  index.listings.get? id

def dependencyOf (index : ClassIndex) (id : ArtifactId) : Option String :=
  index.dependencies.get? id

def classCount (index : ClassIndex) : Nat :=
  index.owners.size

def artifactCount (index : ClassIndex) : Nat :=
  index.listings.size

def isEmpty (index : ClassIndex) : Bool :=
  index.listings.isEmpty

/-! ## Filling -/

/-- The owners after an artifact has claimed some classes. -/
def claim (id : ArtifactId) (classes : List String) (owners : Assoc String ArtifactId) :
    Assoc String ArtifactId :=
  classes.foldl (fun sofar className => sofar.insert className id) owners

/-- Adds the classes of an artifact. -/
def insert (index : ClassIndex) (artifact : ResolvedArtifact) (classes : List String) :
    ClassIndex where
  owners := claim artifact.id classes index.owners
  listings := index.listings.update artifact.id fun held =>
    (held.getD .empty).insertAll classes
  dependencies := index.dependencies.insert artifact.id artifact.dependencyName

/-- Drops all that an index holds. -/
def clear (_ : ClassIndex) : ClassIndex := empty

/-! ## Facts -/

theorem get?_claim {id : ArtifactId} {className : String} :
    ∀ {classes : List String} {owners : Assoc String ArtifactId},
      (claim id classes owners).get? className =
        if className ∈ classes then some id else owners.get? className
  | [], owners => by simp [claim]
  | first :: rest, owners => by
      rw [claim, List.foldl_cons]
      change (claim id rest (owners.insert first id)).get? className = _
      rw [get?_claim]
      by_cases later : className ∈ rest
      · simp [later]
      · by_cases same : className = first
        · subst same
          simp [later, Assoc.insert, Assoc.get?_update_self]
        · simp [later, same, Assoc.insert, Assoc.get?_update_of_ne _ _ same]

/-- A class belongs to the artifact that holds it and was added last. -/
theorem artifactFor_insert {index : ClassIndex} {artifact : ResolvedArtifact}
    {classes : List String} {className : String} :
    (index.insert artifact classes).artifactFor className =
      if className ∈ classes then some artifact.id else index.artifactFor className :=
  get?_claim

theorem classesOf_insert_self {index : ClassIndex} {artifact : ResolvedArtifact}
    {classes : List String} :
    (index.insert artifact classes).classesOf artifact.id =
      some (((index.classesOf artifact.id).getD .empty).insertAll classes) :=
  Assoc.get?_update_self ..

theorem classesOf_insert_of_ne {index : ClassIndex} {artifact : ResolvedArtifact}
    {classes : List String} {id : ArtifactId} (other : id ≠ artifact.id) :
    (index.insert artifact classes).classesOf id = index.classesOf id :=
  Assoc.get?_update_of_ne _ _ other

theorem dependencyOf_insert_self {index : ClassIndex} {artifact : ResolvedArtifact}
    {classes : List String} :
    (index.insert artifact classes).dependencyOf artifact.id = some artifact.dependencyName :=
  Assoc.get?_update_self ..

theorem dependencyOf_insert_of_ne {index : ClassIndex} {artifact : ResolvedArtifact}
    {classes : List String} {id : ArtifactId} (other : id ≠ artifact.id) :
    (index.insert artifact classes).dependencyOf id = index.dependencyOf id :=
  Assoc.get?_update_of_ne _ _ other

end ClassIndex

end DependencyAudit
