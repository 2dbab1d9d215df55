/-
# DependencyAudit.Cache.Stored -- caches in files

A cache is stored as JSON, with the version of its format.  A file of another version is
refused.  What nothing is taken from need not be well-formed text.  `loadOr` begins a new cache
where none can be loaded (`loadOr_of_missing`).

A cache is stored if its file could be opened for writing: in a `FileSystem` every octet that is
written gets there.  The program has its octets written out when it lets go of the file, and
does not ask whether that went well, so on a full disk or a device `save` reports success where
nothing was stored.  This is left out here.
-/
import DependencyAudit.Cache.Basic
import DependencyAudit.Document.OfJson
import DependencyAudit.FileSystem.Change
import DependencyAudit.Json.Printer

namespace DependencyAudit

set_option autoImplicit false

/-- Why a cache cannot be loaded. -/
inductive CacheError where
  | unreadable
  | malformed
  | otherVersion (found : Nat)
deriving Repr, DecidableEq

namespace CachedListing

def toJson (listing : CachedListing) : Json :=
  .object [("metadata", listing.fingerprint.toJson), ("classes", .ofTexts listing.classes)]

/-- The listing that a document gives for a path. -/
def ofDocument (path : Path) (document : Document) : Decoder CachedListing := do
  match ← document.fields [["metadata"], ["classes"]] with
  | [metadata, classes] =>
      return {
        path
        fingerprint := ← Document.fieldOf Fingerprint.ofDocument metadata
        classes := ← Document.fieldOf Document.texts classes }
  | _ => Decoder.refuse

end CachedListing

namespace Cache

/-- The version of the format. -/
def version : Nat := 1

/-- What is said of a file of another version. -/
def versionMessage (found : Nat) : String :=
  "Cache version mismatch (found " ++ toString found ++ ", expected " ++ toString version ++ ")"

/-! ## Documents -/

def listingsToJson (cache : Cache) : Json :=
  .object (cache.listings.values.map fun held => (held.path.text, held.toJson))

def toJson (cache : Cache) : Json :=
  .object [("version", .ofNat version), ("artifacts", cache.listingsToJson),
    ("created_at", .ofNat cache.created.toNat)]

/-- The listings that a document gives; of several for one path the last counts. -/
def listingsOfDocument : Document → Decoder (List CachedListing) :=
  Document.entries fun name => CachedListing.ofDocument ⟨name⟩

/-- The cache of some listings. -/
def ofListings (created : UInt64) (listings : List CachedListing) : Cache :=
  listings.foldl keep ⟨.empty, created⟩

/-- The version and the cache that a document gives. -/
def ofDocument (document : Document) : Decoder (Nat × Cache) := do
  match ← document.fields [["version"], ["artifacts"], ["created_at"]] with
  | [found, artifacts, created] =>
      let found ← Document.fieldOf (Document.natural UInt32.size) found
      let listings ← Document.fieldOf listingsOfDocument artifacts
      let created ← Document.fieldOf Fingerprint.wordOfDocument created
      return (found, ofListings created listings)
  | _ => Decoder.refuse

/-! ## Files -/

/-- The cache in the content of a file. -/
def ofOctets (octets : List UInt8) : Except CacheError Cache :=
  match (Document.ofJsonOctets octets).bind (·.decode ofDocument) with
  | none => .error .malformed
  | some (found, cache) => if found = version then .ok cache else .error (.otherVersion found)

/-- The cache in a file. -/
def load (files : FileSystem) (path : Path) : Except CacheError Cache :=
  match files.found? path with
  | none => .error .unreadable
  | some _ =>
      match files.read? path with
      | none => .error .malformed
      | some octets => ofOctets octets

/-- The cache in a file, or a new one. -/
def loadOr (files : FileSystem) (path : Path) : Cache :=
  match load files path with
  | .ok cache => cache
  | .error _ => begun files.clock

/-- Stores a cache; the flag says whether it is stored. -/
def save (cache : Cache) (files : FileSystem) (path : Path) : FileSystem × Bool :=
  files.store path (Text.Utf8.encodeString cache.toJson.compact)

/-! ## Facts -/

/-- Where there is no file a new cache is begun. -/
theorem loadOr_of_missing {files : FileSystem} {path : Path} (missing : files.found? path = none) :
    loadOr files path = begun files.clock := by
  simp [loadOr, load, missing]

end Cache

end DependencyAudit
