/-
# DependencyAudit.FileSystem.Basic -- files, directories and links

A file system is a list of entries, each at a location: the names on the way to
it from the root.  Paths that do not start at the root start at the working
directory.

`destination` follows a path name by name, through links, at most forty of them; it gives a
location even if nothing is there yet, provided that all names before the last lead to a
directory.  A path that leads nowhere either misses a directory on its way or is one that the
system does not follow, and `locate?` does not tell the two apart (`locate?_eq_none` is about
the second).  All questions (`fileAt?`, `isDirectory`, `exists`, `names?`) are asked at the
location that a path leads to, so their answers agree: what holds octets exists
(`fileAt?_exists`), and what has names is a directory (`isDirectory_of_names?`).

There are directories, regular files and links, and no devices.  Nothing is said of
permissions, nor of the room that is left.
-/
import DependencyAudit.NameSet
import DependencyAudit.Path
import DependencyAudit.Text.Utf8

namespace DependencyAudit

open Text

set_option autoImplicit false

/-- The names on the way from the root. -/
abbrev Location := List String

/-- A regular file. -/
structure FileContent where
  octets : List UInt8
  /-- The moment of the last change, in seconds since the epoch. -/
  modified : Int
deriving Repr, DecidableEq, Inhabited

/-- What can be at a location. -/
inductive FileEntry where
  | file (content : FileContent)
  | directory
  | link (target : Path)
deriving Repr, DecidableEq, Inhabited

/-- The files at one moment. -/
structure FileSystem where
  /-- What is where; the root itself is not listed. -/
  entries : List (Location × FileEntry)
  workingDirectory : Location
  /-- The moment, in seconds since the epoch. -/
  clock : Nat
deriving Repr, Inhabited

namespace FileSystem

/-! ## Locations -/

/-- What is at a location. -/
def entryAt? (files : FileSystem) (location : Location) : Option FileEntry :=
  if location = [] then some .directory else files.entries.lookup location

/-- Why a path leads nowhere. -/
inductive PathFault where
  /-- There is nothing at a name on the way. -/
  | missing
  /-- The system does not follow the path. -/
  | refused
deriving Repr, DecidableEq

/-- The most octets that the name of an entry can have. -/
def longestName : Nat := 255

/-- The number of links that a path may lead through. -/
def linkLimit : Nat := 40

/-- Follows segments from the directory at a location; where a link is met, `onLink` goes
on from the directory it lies in, with its target and the segments behind it. -/
def followUntil (files : FileSystem)
    (onLink : Location → Path → List String → Except PathFault Location) :
    Location → List String → Except PathFault Location
  | location, [] => .ok location
  | location, segment :: rest =>
      if segment = "" ∨ segment = "." then followUntil files onLink location rest
      else if segment = ".." then followUntil files onLink location.dropLast rest
      else if longestName < segment.utf8ByteSize then .error .refused
      else match files.entryAt? (location ++ [segment]) with
        | some .directory => followUntil files onLink (location ++ [segment]) rest
        | some (.link target) => onLink location target rest
        | some (.file _) => if rest = [] then .ok (location ++ [segment]) else .error .refused
        | none => if rest = [] then .ok (location ++ [segment]) else .error .missing

/-- Follows segments through links, as many as are left. -/
def follow (files : FileSystem) : Nat → Location → List String → Except PathFault Location
  | 0 => followUntil files fun _ _ _ => .error .refused
  | remaining + 1 => followUntil files fun location target rest =>
      follow files remaining (if target.isAbsolute then [] else location) (target.segments ++ rest)

/-- Where a path starts. -/
def origin (files : FileSystem) (path : Path) : Location :=
  if path.isAbsolute then [] else files.workingDirectory

/-- The location that a path leads to, or why there is none. -/
def destination (files : FileSystem) (path : Path) : Except PathFault Location :=
  if path.text = "" then .error .missing
  else if !path.isAdmissible then .error .refused
  else files.follow linkLimit (files.origin path) path.segments

/-- The location that a path leads to. -/
def locate? (files : FileSystem) (path : Path) : Option Location :=
  (files.destination path).toOption

/-- What a path leads to. -/
def found? (files : FileSystem) (path : Path) : Option FileEntry :=
  (files.locate? path).bind files.entryAt?

/-! ## Questions -/

def «exists» (files : FileSystem) (path : Path) : Bool :=
  (files.found? path).isSome

def isDirectory (files : FileSystem) (path : Path) : Bool :=
  files.found? path = some .directory

/-- The regular file at a path. -/
def fileAt? (files : FileSystem) (path : Path) : Option FileContent :=
  match files.found? path with
  | some (.file content) => some content
  | _ => none

def isFile (files : FileSystem) (path : Path) : Bool :=
  (files.fileAt? path).isSome

/-- The octets of the regular file at a path. -/
def read? (files : FileSystem) (path : Path) : Option (List UInt8) :=
  (files.fileAt? path).map FileContent.octets

/-- The text of the regular file at a path, if it is well-formed. -/
def readText? (files : FileSystem) (path : Path) : Option (List Char) :=
  (files.read? path).bind Utf8.decode?

/-- The names in the directory at a location, in order. -/
def namesAt (files : FileSystem) (location : Location) : NameSet :=
  NameSet.ofList (files.entries.filterMap fun (place, _) =>
    if place.dropLast = location then place.getLast? else none)

/-- The names in the directory at a path, in order. -/
def names? (files : FileSystem) (path : Path) : Option NameSet :=
  match files.locate? path with
  | some location =>
      if files.entryAt? location = some .directory then some (files.namesAt location) else none
  | none => none

/-! ## Facts -/

/-- A path that no system takes leads nowhere. -/
theorem locate?_eq_none {files : FileSystem} {path : Path} (barred : path.isAdmissible = false) :
    files.locate? path = none := by
  unfold locate? destination
  split
  · rfl
  · simp [barred, Except.toOption]

theorem found?_of_fileAt? {files : FileSystem} {path : Path} {content : FileContent}
    (held : files.fileAt? path = some content) : files.found? path = some (.file content) := by
  unfold fileAt? at held
  split at held
  · rename_i present
    rw [present, Option.some.inj held]
  · cases held

theorem fileAt?_exists {files : FileSystem} {path : Path} {content : FileContent}
    (held : files.fileAt? path = some content) : files.exists path = true := by
  rw [«exists», found?_of_fileAt? held]
  rfl

theorem isDirectory_of_names? {files : FileSystem} {path : Path} {names : NameSet}
    (listed : files.names? path = some names) : files.isDirectory path = true := by
  unfold names? at listed
  split at listed
  · rename_i location found
    split at listed
    · rename_i present
      simp [isDirectory, found?, found, present]
    · cases listed
  · cases listed

end FileSystem

end DependencyAudit
