/-
# DependencyAudit.FileSystem.View -- what a system says of files

Whoever watches files without changing them asks three things of a path: what the system says
about the file there (`status?`), what the file holds (`octets?`), and whether there is
anything at all (`exists`).  The first two have their answers apart: a file whose octets
cannot be had still has a status, and so has a directory.  A `FileView` is all answers at one
moment, of which only this is known: of nothing there is neither status nor octets.

A second that can be recorded is the one that is compared with later
(`FileStatus.recorded?_eq_some`); a status may have none.

The view of a `FileSystem` has a status for regular files alone, since it does not keep when
directories change.
-/
import DependencyAudit.FileSystem.Basic

namespace DependencyAudit

set_option autoImplicit false

/-- What a system says about a file without opening it. -/
structure FileStatus where
  /-- The moment of the last change, in seconds since the epoch, where such moments are kept. -/
  modified? : Option Int
  size : UInt64
deriving Repr, DecidableEq

namespace FileStatus

/-- The seconds from the epoch to a moment that is not before it. -/
def sinceEpoch? (moment : Int) : Option Nat :=
  if moment < 0 then none else some moment.toNat

/-- The second to be recorded, if there is one: 0 before the epoch. -/
def recorded? (status : FileStatus) : Option UInt64 :=
  status.modified?.map fun moment => UInt64.ofNat ((sinceEpoch? moment).getD 0)

/-- The second to compare with what was recorded: 0 before the epoch, and where no moments are
kept. -/
def second (status : FileStatus) : UInt64 :=
  UInt64.ofNat ((status.modified?.bind sinceEpoch?).getD 0)

/-! ## Facts -/

theorem recorded?_eq_some {status : FileStatus} {second : UInt64}
    (recorded : status.recorded? = some second) : status.second = second := by
  obtain ⟨moment, kept, rfl⟩ := Option.map_eq_some_iff.mp recorded
  rw [FileStatus.second, kept, Option.bind_some]

@[simp] theorem getD_sinceEpoch? (moment : Int) : (sinceEpoch? moment).getD 0 = moment.toNat := by
  unfold sinceEpoch?
  split
  · rename_i before
    rw [Option.getD_none, Int.toNat_of_nonpos (Int.le_of_lt before)]
  · rfl

end FileStatus

/-- All that a system says at one moment. -/
structure FileView where
  status? : Path → Option FileStatus
  octets? : Path → Option (List UInt8)
  «exists» : Path → Bool
  exists_of_status : ∀ path, (status? path).isSome = true → «exists» path = true
  exists_of_octets : ∀ path, (octets? path).isSome = true → «exists» path = true

namespace FileContent

def status (content : FileContent) : FileStatus :=
  ⟨some content.modified, UInt64.ofNat content.octets.length⟩

@[simp] theorem recorded?_status (content : FileContent) :
    content.status.recorded? = some (UInt64.ofNat content.modified.toNat) := by
  simp [status, FileStatus.recorded?]

@[simp] theorem second_status (content : FileContent) :
    content.status.second = UInt64.ofNat content.modified.toNat :=
  FileStatus.recorded?_eq_some content.recorded?_status

end FileContent

namespace FileSystem

theorem exists_of_isSome_map {α : Type} {files : FileSystem} {path : Path}
    {part : FileContent → α} (known : ((files.fileAt? path).map part).isSome = true) :
    files.exists path = true := by
  rw [Option.isSome_map] at known
  obtain ⟨content, held⟩ := Option.isSome_iff_exists.mp known
  exact fileAt?_exists held

/-- What is seen of the files of a file system. -/
def view (files : FileSystem) : FileView where
  status? path := (files.fileAt? path).map FileContent.status
  octets? := files.read?
  «exists» := files.exists
  exists_of_status _ known := exists_of_isSome_map known
  exists_of_octets _ known := exists_of_isSome_map known

instance : Coe FileSystem FileView := ⟨view⟩

@[simp] theorem view_status? (files : FileSystem) (path : Path) :
    files.view.status? path = (files.fileAt? path).map FileContent.status := rfl

@[simp] theorem view_octets? (files : FileSystem) (path : Path) :
    files.view.octets? path = (files.fileAt? path).map FileContent.octets := rfl

@[simp] theorem view_exists (files : FileSystem) (path : Path) :
    files.view.exists path = files.exists path := rfl

end FileSystem

end DependencyAudit
