/-
# DependencyAudit.FileSystem.Change -- writing and removing files

Each change gives the files after it, or nothing if the system refuses it: A change at
one location is seen there and nowhere else (`entryAt?_set_self`,
`entryAt?_set_of_ne`).  `put?` writes a regular file through any links, `link?` makes
a link, `remove?` takes away an entry and all below it.  `makeDirectories` makes a
directory and those it needs, and `store` a file with its directory; both may get half
way.

Directories are made from the far end: a path is tried as a whole, and the paths above
it only where a directory on its way is missing.  So a path that the system does not
follow leaves no directories behind (`makeEach_of_refused`).

A file that can be opened for writing takes every octet: a write never fails half way,
for want of room or otherwise.
-/
import DependencyAudit.FileSystem.Basic

namespace DependencyAudit.FileSystem

set_option autoImplicit false

/-- The entry at one location replaced or added. -/
def set (files : FileSystem) (location : Location) (entry : FileEntry) : FileSystem :=
  { files with
    entries := (location, entry) :: files.entries.filter fun (place, _) => place ≠ location }

/-- Whether one location is at or below another. -/
def isWithin (location above : Location) : Bool :=
  location.take above.length = above

/-- Without a location and all below it. -/
def cut (files : FileSystem) (location : Location) : FileSystem :=
  { files with entries := files.entries.filter fun (place, _) => !isWithin place location }

/-! ## Regular files -/

/-- Writes a regular file. -/
def put? (files : FileSystem) (path : Path) (content : FileContent) : Option FileSystem := do
  let location ← files.locate? path
  match files.entryAt? location with
  | some .directory => none
  | some (.link _) => none
  | some (.file _) => some (files.set location (.file content))
  | none => some (files.set location (.file content))

/-- Writes octets at the present moment. -/
def write? (files : FileSystem) (path : Path) (octets : List UInt8) : Option FileSystem :=
  files.put? path ⟨octets, files.clock⟩

/-! ## Entries under their own name -/

/-- The location of the directory at a path, the working directory if the path is
empty. -/
def directoryAt (files : FileSystem) (path : Path) : Except PathFault Location := do
  let location ← if path.text = "" then .ok files.workingDirectory else files.destination path
  match files.entryAt? location with
  | some .directory => return location
  | some _ => .error .refused
  | none => .error .missing

/-- The location of the entry that a path names, its last part not followed.  A path
that ends in dots names none, but it may miss a directory all the same. -/
def place (files : FileSystem) (path : Path) : Except PathFault Location :=
  if !path.isAdmissible then .error .refused
  else match path.fileName?, path.parent? with
    | some name, some above => do
        let location ← files.directoryAt above
        if longestName < name.utf8ByteSize then .error .refused else return location ++ [name]
    | _, _ => do
        let _ ← files.directoryAt path
        .error .refused

/-- Puts an entry where there is nothing. -/
def add (files : FileSystem) (path : Path) (entry : FileEntry) : Except PathFault FileSystem := do
  let location ← files.place path
  match files.entryAt? location with
  | some _ => .error .refused
  | none => return files.set location entry

/-- Makes the first of some directories, and the others as far as it needs them, each
lying in the next; the flag says whether it is there in the end.  What could be made on
the way stays. -/
def makeEach : List Path → FileSystem → FileSystem × Bool
  | [], files => (files, false)
  | path :: above, files =>
      if path.text = "" then (files, true)
      else match files.add path .directory with
        | .ok made => (made, true)
        | .error .refused => (files, files.isDirectory path)
        | .error .missing =>
            let (sofar, possible) := makeEach above files
            if !possible then (sofar, false)
            else match sofar.add path .directory with
              | .ok made => (made, true)
              | .error _ => (sofar, sofar.isDirectory path)

/-- Makes a directory and all that it needs; the flag says whether it is there in
the end. -/
def makeDirectories (files : FileSystem) (path : Path) : FileSystem × Bool :=
  makeEach path.ancestors files

/-- Makes the directory that a path lies in. -/
def makeParents (files : FileSystem) (path : Path) : FileSystem × Bool :=
  match path.parent? with
  | some above => if above.text = "" then (files, true) else files.makeDirectories above
  | none => (files, true)

/-- Writes a regular file after making the directory it lies in; the flag says
whether it is written. -/
def store (files : FileSystem) (path : Path) (octets : List UInt8) : FileSystem × Bool :=
  let (made, possible) := files.makeParents path
  if possible then
    match made.write? path octets with
    | some written => (written, true)
    | none => (made, false)
  else (made, false)

/-- Makes a link where there is nothing. -/
def link? (files : FileSystem) (path target : Path) : Option FileSystem :=
  (files.add path (.link target)).toOption

/-- Takes away what a path names, with all below it. -/
def remove? (files : FileSystem) (path : Path) : Option FileSystem := do
  let location ← (files.place path).toOption
  match files.entryAt? location with
  | some _ => some (files.cut location)
  | none => none

/-! ## Facts -/

/-- A path that the system does not follow leaves no directories behind. -/
theorem makeEach_of_refused {files : FileSystem} {path : Path} {above : List Path}
    (refused : files.add path .directory = .error .refused) :
    (makeEach (path :: above) files).1 = files := by
  unfold makeEach
  split
  · rfl
  · simp [refused]

theorem entryAt?_set_self {files : FileSystem} {location : Location} {entry : FileEntry}
    (below : location ≠ []) : (files.set location entry).entryAt? location = some entry := by
  simp [entryAt?, set, below]

theorem lookup_filter_ne {location other : Location} (distinct : other ≠ location) :
    ∀ entries : List (Location × FileEntry),
      (entries.filter fun (place, _) => place ≠ location).lookup other = entries.lookup other
  | [] => rfl
  | (place, entry) :: rest => by
      have tail := lookup_filter_ne distinct rest
      by_cases same : place = location
      · have differs : (other == place) = false := by simpa [same] using distinct
        simp only [List.lookup_cons, differs]
        rw [← tail]
        simp [same]
      · by_cases hit : other = place
        · subst hit
          simp [same]
        · have differs : (other == place) = false := by simpa using hit
          simp only [List.lookup_cons, differs]
          rw [← tail]
          simp [same, List.lookup_cons, differs]

theorem entryAt?_set_of_ne {files : FileSystem} {location other : Location} {entry : FileEntry}
    (distinct : other ≠ location) :
    (files.set location entry).entryAt? other = files.entryAt? other := by
  have differs : (other == location) = false := by simpa using distinct
  simp only [entryAt?, set, List.lookup_cons, differs]
  rw [lookup_filter_ne distinct]

end DependencyAudit.FileSystem
