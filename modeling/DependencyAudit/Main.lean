/-
# DependencyAudit.Main -- the program

The program takes a picture of the files that a run looks at, runs on that picture,
and writes what the run has changed.  The picture is taken in rounds, since files seen
in one round name those of the next.
-/
import DependencyAudit.CommandLine.Scope
import Std.Time.DateTime.Timestamp

namespace DependencyAudit.Program

open DependencyAudit.CommandLine

set_option autoImplicit false

/-! ## Seeing files -/

/-- The files seen so far, and the directories whose names are all known. -/
structure Picture where
  files : FileSystem
  listed : List Location

/-- The absolute path of a location. -/
def textOf (location : Location) : String :=
  "/" ++ "/".intercalate location

/-- What has a name in a directory, links not followed.  A link that leads nowhere is
seen as one that leads to itself. -/
def observe (above : Location) (name : String) : IO (Option FileEntry) := do
  let entry : IO.FS.DirEntry := ⟨⟨textOf above⟩, name⟩
  try
    let metadata ← entry.path.symlinkMetadata
    match metadata.type with
    | .dir => return some .directory
    | .file =>
        let octets ← IO.FS.readBinFile entry.path
        return some (.file ⟨octets.toList, metadata.modified.sec⟩)
    | .symlink =>
        try
          return some (.link ⟨(← IO.FS.realPath entry.path).toString⟩)
        catch _ => return some (.link ⟨entry.path.toString⟩)
    | .other => return none
  catch _ => return none

/-- Follows names from a location, within a number of steps, and takes up what is on
the way. -/
def reach (picture : Picture) (above : Location) :
    Nat → List String → IO (Picture × Option Location)
  | _, [] => return (picture, some above)
  | 0, _ => return (picture, none)
  | steps + 1, name :: rest => do
      if name = "" || name = "." then reach picture above steps rest
      else if name = ".." then reach picture above.dropLast steps rest
      else
        let location := above ++ [name]
        let entry ← match picture.files.entryAt? location with
          | some entry => pure (some entry)
          | none => observe above name
        match entry with
        | none => return (picture, none)
        | some entry =>
            let picture := match picture.files.entryAt? location with
              | some _ => picture
              | none => { picture with files := picture.files.set location entry }
            match entry with
            | .directory => reach picture location steps rest
            | .link target => reach picture [] steps (target.segments ++ rest)
            | .file _ => return (picture, some location)

/-- The most names that one path may lead through. -/
def stepLimit : Nat := 4096

/-- Takes up what a path leads to. -/
def visit (picture : Picture) (path : Path) : IO (Picture × Option Location) :=
  let start := if path.isAbsolute then [] else picture.files.workingDirectory
  reach picture start stepLimit path.segments

/-- Takes up all that is below a location. -/
partial def search (picture : Picture) (location : Location) : IO Picture := do
  if picture.files.entryAt? location ≠ some .directory || picture.listed.contains location then
    return picture
  let directory ← IO.FS.realPath (textOf location)
  let mut picture := { picture with listed := location :: picture.listed }
  for entry in ← directory.readDir do
    let (seen, found) ← reach picture location stepLimit [entry.fileName]
    picture ← found.elim (pure seen) (search seen)
  return picture

/-- Takes up what the files seen so far ask for. -/
def look (arguments : Arguments) (picture : Picture) : IO Picture := do
  let mut picture := picture
  for path in arguments.visited picture.files do
    picture := (← visit picture path).1
  for path in arguments.searched picture.files do
    let (seen, found) ← visit picture path
    picture ← found.elim (pure seen) (search seen)
  return picture

/-- The picture before anything is seen. -/
def start : IO Picture := do
  let here ← IO.FS.realPath "."
  let location := (Path.segments ⟨here.toString⟩).filter (· ≠ "")
  let onTheWay := (List.range location.length).map fun count =>
    (location.take (count + 1), FileEntry.directory)
  let now ← Std.Time.Timestamp.now
  return ⟨⟨onTheWay, location, now.toSecondsSinceUnixEpoch.val.toNat⟩, []⟩

/-! ## Changing files -/

/-- Writes the entries that one state of the files has and another has not. -/
def write (before after : FileSystem) : IO Unit := do
  for (location, entry) in after.entries.reverse do
    if before.entries.lookup location ≠ some entry then
      match entry with
      | .directory => IO.FS.createDirAll (textOf location)
      | .file content => IO.FS.writeBinFile (textOf location) ⟨content.octets.toArray⟩
      | .link _ => pure ()

/-! ## Running -/

/-- Runs as the arguments ask, and gives the code to exit with. -/
def perform (arguments : Arguments) : IO UInt32 := do
  let picture ← look arguments (← look arguments (← look arguments (← start)))
  let outcome := run picture.files arguments false
  write picture.files outcome.files
  IO.print outcome.printed
  for failure in outcome.failures do
    IO.eprintln failure
  if let some error := outcome.error then
    IO.eprintln ("Error: " ++ error.message "it cannot be read or written as expected")
  return UInt32.ofNat outcome.exitCode

end DependencyAudit.Program

open DependencyAudit.CommandLine in
def main (words : List String) : IO UInt32 := do
  match Arguments.ofWords words with
  | .error .help => IO.print helpText; return 0
  | .error .version => IO.print versionText; return 0
  | .error .misuse =>
      IO.eprint ("error: the arguments are not understood\n\n" ++
        "For more information, try '--help'.\n")
      return 2
  | .ok arguments => DependencyAudit.Program.perform arguments
