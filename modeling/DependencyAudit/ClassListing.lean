/-
# DependencyAudit.ClassListing -- the classes in a container

A jar and a directory of classes hold one class for each file whose name says so.
A jar is listed by the distinct names of its entries, a directory by the paths of
its files below it.  What is no directory cannot be listed as one
(`ofDirectory_of_notDirectory`).
-/
import DependencyAudit.Archive.Zip
import DependencyAudit.Artifact.Resolved
import DependencyAudit.AuditError
import DependencyAudit.ClassName
import DependencyAudit.FileSystem.Walk

namespace DependencyAudit.ClassListing

set_option autoImplicit false

/-- The classes that the records of an archive stand for, in order; two entries of
different names may stand for one class. -/
def ofRecords (records : List Archive.Zip.Record) : List String :=
  let names := NameSet.ofList (records.map Archive.Zip.Record.name)
  (names.toList.filterMap ClassName.ofEntry?).mergeSort fun first second => decide (first ≤ second)

/-- The classes in the jar at a path. -/
def ofJar (files : FileSystem) (path : Path) : Except ListingFault (List String) :=
  match (files.read? path).bind Archive.Zip.directory? with
  | some records => .ok (ofRecords records)
  | none => .error .unreadable

/-- The classes below the directory at a path. -/
def ofDirectory (files : FileSystem) (path : Path) : Except ListingFault (List String) :=
  if files.isDirectory path then
    match (files.walk path).mapM id with
    | .ok found => .ok (found.filterMap fun file => ClassName.ofEntry? file.name)
    | .error _ => .error .unreadable
  else .error .notDirectory

/-- The classes in a container at a path. -/
def ofContainer (files : FileSystem) (container : Container) (path : Path) :
    Except ListingFault (List String) :=
  match container with
  | .jar => ofJar files path
  | .directory => ofDirectory files path

/-! ## Facts -/

theorem ofDirectory_of_notDirectory {files : FileSystem} {path : Path}
    (absent : files.isDirectory path = false) : ofDirectory files path = .error .notDirectory := by
  simp [ofDirectory, absent]

end DependencyAudit.ClassListing
