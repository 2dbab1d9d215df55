/-
# DependencyAudit.FileSystem.Walk -- the files below a directory

`walk` comes upon the regular files below a directory: depth first, the names of
each directory in order, links followed.  A link that leads nowhere, or back to
a directory that the walk is inside of, is a fault of its own path, and so is a
directory whose path the system does not follow.  Faults stand where they are met,
so whoever reads the files in order meets the first fault, of whatever kind, first.

The walk spends one unit of a budget for each directory it enters; `budget`
covers every chain of directories, since links cannot lead back.
-/
import DependencyAudit.FileSystem.Basic

namespace DependencyAudit.FileSystem

set_option autoImplicit false

/-- A file found below a directory. -/
structure WalkedFile where
  /-- The names from the directory to the file. -/
  relative : List String
  path : Path
  /-- Its octets, unless its path is one that the system does not take. -/
  octets? : Option (List UInt8)
deriving Repr, DecidableEq

namespace WalkedFile

/-- The path of the file relative to the directory. -/
def name (file : WalkedFile) : String :=
  "/".intercalate file.relative

end WalkedFile

/-- A directory being walked: where it is, the path it was reached by, and the
locations of the directories around it. -/
structure Visit where
  location : Location
  path : Path
  relative : List String
  around : List Location

namespace Visit

/-- The path of a name inside the directory being walked. -/
def pathOf (visit : Visit) (name : String) : Path :=
  visit.path.join ⟨name⟩

/-- The directory of a name inside the one being walked. -/
def enter (visit : Visit) (name : String) (location : Location) : Visit where
  location
  path := visit.pathOf name
  relative := visit.relative ++ [name]
  around := visit.location :: visit.around

/-- The file of a name inside the directory being walked. -/
def found (visit : Visit) (name : String) (content : FileContent) : WalkedFile where
  relative := visit.relative ++ [name]
  path := visit.pathOf name
  octets? := if (visit.pathOf name).isAdmissible then some content.octets else none

end Visit

/-- What a walk comes upon below a directory: files, and paths of faults. -/
def walkFrom (files : FileSystem) : Nat → Visit → List (Except Path WalkedFile)
  | 0, visit => [.error visit.path]
  | budget + 1, visit =>
      (files.namesAt visit.location).toList.flatMap fun name =>
        let location := visit.location ++ [name]
        let path := visit.pathOf name
        match files.entryAt? location with
        | some (.file content) => [.ok (visit.found name content)]
        | some .directory =>
            if (files.locate? path).isSome then walkFrom files budget (visit.enter name location)
            else [.error path]
        | some (.link _) =>
            match files.locate? path with
            | none => [.error path]
            | some target =>
                match files.entryAt? target with
                | some (.file content) => [.ok (visit.found name content)]
                | some .directory =>
                    if target ∈ visit.location :: visit.around then [.error path]
                    else walkFrom files budget (visit.enter name target)
                | _ => [.error path]
        | none => [.error path]

/-- A bound on the length of any chain of directories that a walk can enter. -/
def budget (files : FileSystem) : Nat :=
  (files.entries.length + 1) * (files.entries.length + 1) + 1

/-- What a walk comes upon below the directory at a path. -/
def walk (files : FileSystem) (path : Path) : List (Except Path WalkedFile) :=
  match files.locate? path with
  | some location => files.walkFrom files.budget ⟨location, path, [], []⟩
  | none => [.error path]

end DependencyAudit.FileSystem
