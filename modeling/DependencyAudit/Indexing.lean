/-
# DependencyAudit.Indexing -- the index of a class path

`populate` lists the artifacts of a class path in order and indexes their classes.
Artifacts that are no container are passed over; the first one that is missing or
cannot be listed is reported, and then there is no index.

`populateWith` does the same with a cache of listings of jars.  All artifacts are
looked up in the cache as it was at the start; what had to be listed afresh is kept
in it, up to the first artifact that fails.
-/
import DependencyAudit.Cache.Basic
import DependencyAudit.ClassIndex
import DependencyAudit.ClassListing

namespace DependencyAudit

set_option autoImplicit false

namespace Indexing

/-! ## Listing -/

/-- What is found out about an artifact. -/
inductive Listing where
  /-- It is no container. -/
  | skipped
  /-- Its classes were in the cache. -/
  | cached (classes : List String)
  | scanned (container : Container) (classes : List String)
deriving Repr, DecidableEq

/-- The classes of an artifact, if any are to be indexed. -/
def Listing.classes? : Listing → Option (List String)
  | .skipped => none
  | .cached classes => some classes
  | .scanned _ classes => some classes

/-- Lists a container that must exist. -/
def scan (files : FileSystem) (artifact : ResolvedArtifact) (container : Container) :
    Except AuditError Listing :=
  if !files.exists artifact.file then .error (.artifact artifact.id artifact.file .missing)
  else ((ClassListing.ofContainer files container artifact.file).map
      (Listing.scanned container)).mapError (.artifact artifact.id artifact.file)

/-- Lists an artifact. -/
def list (files : FileSystem) (artifact : ResolvedArtifact) : Except AuditError Listing :=
  match artifact.container? files with
  | none => .ok .skipped
  | some container => scan files artifact container

/-- Lists an artifact, a jar by the cache if its listing there is good. -/
def listWith (cache : Cache) (files : FileSystem) (artifact : ResolvedArtifact) :
    Except AuditError Listing :=
  match artifact.container? files with
  | none => .ok .skipped
  | some .directory => scan files artifact .directory
  | some .jar =>
      match cache.lookup? files artifact.file with
      | some classes => .ok (.cached classes)
      | none => scan files artifact .jar

/-! ## Indexing -/

/-- Adds the classes of a listing to an index. -/
def add (index : ClassIndex) (artifact : ResolvedArtifact) (listing : Listing) : ClassIndex :=
  match listing.classes? with
  | none => index
  | some classes => index.insert artifact classes

/-- Indexes some artifacts after what an index already has. -/
def populateFrom (files : FileSystem) :
    List ResolvedArtifact → ClassIndex → Except AuditError ClassIndex
  | [], index => .ok index
  | artifact :: rest, index =>
      match list files artifact with
      | .error error => .error error
      | .ok listing => populateFrom files rest (add index artifact listing)

/-- The index of some artifacts. -/
def populate (files : FileSystem) (artifacts : List ResolvedArtifact) :
    Except AuditError ClassIndex :=
  populateFrom files artifacts .empty

/-- Keeps what was listed afresh in a jar. -/
def keep (cache : Cache) (files : FileSystem) (artifact : ResolvedArtifact) (listing : Listing) :
    Cache :=
  match listing with
  | .scanned .jar classes => (cache.insert files artifact.file classes).1
  | _ => cache

/-- Indexes listed artifacts and keeps their listings, up to the first failure. -/
def collect (files : FileSystem) :
    List (ResolvedArtifact × Except AuditError Listing) → Cache → ClassIndex →
      Cache × Except AuditError ClassIndex
  | [], cache, index => (cache, .ok index)
  | (_, .error error) :: _, cache, _ => (cache, .error error)
  | (artifact, .ok listing) :: rest, cache, index =>
      collect files rest (keep cache files artifact listing) (add index artifact listing)

/-- The index of some artifacts, and the cache after it. -/
def populateWith (cache : Cache) (files : FileSystem) (artifacts : List ResolvedArtifact) :
    Cache × Except AuditError ClassIndex :=
  collect files (artifacts.map fun artifact => (artifact, listWith cache files artifact)) cache
    .empty

/-! ## Facts -/

theorem populate_nil (files : FileSystem) : populate files [] = .ok .empty := rfl

theorem populateWith_nil (cache : Cache) (files : FileSystem) :
    populateWith cache files [] = (cache, .ok .empty) := rfl

end Indexing

end DependencyAudit
