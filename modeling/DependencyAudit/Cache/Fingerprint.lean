/-
# DependencyAudit.Cache.Fingerprint -- whether a file has changed

A fingerprint records what a file was like: the second of its last change, its size, and a
hash of its content.  `quickChanged` compares the first two, which the system knows without
opening the file (`quickChanged_eq_false_iff`), and `contentChanged` the hash
(`contentChanged_eq_false_iff`).  A file of which neither can be had has changed, and one
whose fingerprint was just taken has not (`not_changed_of_at?`).
-/
import DependencyAudit.Document.Basic
import DependencyAudit.FileSystem.View
import DependencyAudit.Json.Basic
import DependencyAudit.SipHash

namespace DependencyAudit

set_option autoImplicit false

/-- The second of the last change, no second before the epoch being told from the
first. -/
def FileContent.second (content : FileContent) : UInt64 :=
  UInt64.ofNat content.modified.toNat

def FileContent.size (content : FileContent) : UInt64 :=
  UInt64.ofNat content.octets.length

/-- The hash of some octets. -/
def Octets.digest (octets : List UInt8) : String :=
  SipHash.hex (SipHash.lengthFirst octets)

/-- The hash of the content. -/
def FileContent.digest (content : FileContent) : String :=
  Octets.digest content.octets

/-- What a file was like. -/
structure Fingerprint where
  second : UInt64
  size : UInt64
  digest : String
deriving Repr, DecidableEq

namespace Fingerprint

def ofContent (content : FileContent) : Fingerprint :=
  ⟨content.second, content.size, content.digest⟩

/-- What the file at a path is like. -/
def at? (files : FileView) (path : Path) : Option Fingerprint := do
  let status ← files.status? path
  let second ← status.recorded?
  let octets ← files.octets? path
  return ⟨second, status.size, Octets.digest octets⟩

/-- Whether the time of change or the size differs. -/
def quickChanged (print : Fingerprint) (files : FileView) (path : Path) : Bool :=
  match files.status? path with
  | some status => status.second ≠ print.second || status.size ≠ print.size
  | none => true

/-- Whether the content differs. -/
def contentChanged (print : Fingerprint) (files : FileView) (path : Path) : Bool :=
  match files.octets? path with
  | some octets => Octets.digest octets ≠ print.digest
  | none => true

/-! ## Documents -/

/-- A natural that fits 64 bits. -/
def wordOfDocument (document : Document) : Decoder UInt64 := do
  return .ofNat (← document.natural UInt64.size)

def ofDocument (document : Document) : Decoder Fingerprint := do
  match ← document.fields [["mtime"], ["size"], ["content_hash"]] with
  | [second, size, digest] =>
      return {
        second := ← Document.fieldOf wordOfDocument second
        size := ← Document.fieldOf wordOfDocument size
        digest := ← Document.fieldOf Document.text digest }
  | _ => Decoder.refuse

def toJson (print : Fingerprint) : Json :=
  .object [("mtime", .ofNat print.second.toNat), ("size", .ofNat print.size.toNat),
    ("content_hash", .string print.digest)]

/-! ## Facts -/

theorem quickChanged_eq_false_iff {print : Fingerprint} {files : FileView} {path : Path} :
    print.quickChanged files path = false ↔
      ∃ status, files.status? path = some status ∧ status.second = print.second ∧
        status.size = print.size := by
  unfold quickChanged
  cases files.status? path <;> simp

theorem contentChanged_eq_false_iff {print : Fingerprint} {files : FileView} {path : Path} :
    print.contentChanged files path = false ↔
      ∃ octets, files.octets? path = some octets ∧ Octets.digest octets = print.digest := by
  unfold contentChanged
  cases files.octets? path <;> simp

theorem at?_eq_some_iff {files : FileView} {path : Path} {print : Fingerprint} :
    at? files path = some print ↔
      ∃ status second octets, files.status? path = some status ∧
        status.recorded? = some second ∧ files.octets? path = some octets ∧
        print = ⟨second, status.size, Octets.digest octets⟩ := by
  simp only [at?, Option.bind_eq_bind, Option.bind_eq_some_iff, pure, Option.some.injEq,
    exists_and_left, @eq_comm _ print]

/-- A file whose fingerprint was just taken has not changed. -/
theorem not_changed_of_at? {files : FileView} {path : Path} {print : Fingerprint}
    (taken : at? files path = some print) :
    print.quickChanged files path = false ∧ print.contentChanged files path = false := by
  obtain ⟨status, second, octets, known, recorded, read, rfl⟩ := at?_eq_some_iff.mp taken
  exact ⟨quickChanged_eq_false_iff.mpr
      ⟨status, known, FileStatus.recorded?_eq_some recorded, rfl⟩,
    contentChanged_eq_false_iff.mpr ⟨octets, read, rfl⟩⟩

/-- The fingerprint of a file of a file system is that of its content. -/
theorem at?_view (files : FileSystem) (path : Path) :
    at? files path = (files.fileAt? path).map ofContent := by
  rw [at?, FileSystem.view_status?, FileSystem.view_octets?]
  cases files.fileAt? path with
  | none => rfl
  | some content =>
      rw [Option.map_some, Option.map_some, Option.bind_eq_bind, Option.bind_some,
        FileContent.recorded?_status]
      rfl

end Fingerprint

end DependencyAudit
