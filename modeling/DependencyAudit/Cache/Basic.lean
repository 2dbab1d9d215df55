/-
# DependencyAudit.Cache.Basic -- listings kept between runs

Listing the classes of a jar takes time, so a cache keeps the listings of jars with
the fingerprints their files had.  A listing is good as long as the file has kept its
time of change and its size, or else its content.

Entries are found by the parts of their paths; a path that is given again in another
spelling keeps its first one (`held?_keep`).  What was just inserted is found
(`lookup?_insert?`).
-/
import DependencyAudit.Assoc
import DependencyAudit.Cache.Fingerprint

namespace DependencyAudit

set_option autoImplicit false

/-- A listing that was kept. -/
structure CachedListing where
  path : Path
  fingerprint : Fingerprint
  classes : List String
deriving Repr, DecidableEq

/-- The listings of jars. -/
structure Cache where
  listings : Assoc (List Path.Component) CachedListing
  /-- The second in which the cache was begun. -/
  created : UInt64

namespace Cache

/-- A cache without listings. -/
def begun (second : Nat) : Cache := ⟨.empty, UInt64.ofNat second⟩

def held? (cache : Cache) (path : Path) : Option CachedListing :=
  cache.listings.get? path.components

/-- The spelling that a path has, or would get, in a cache. -/
def spelling (cache : Cache) (path : Path) : Path :=
  ((cache.held? path).map CachedListing.path).getD path

/-- The classes of a jar, if the listing is still good. -/
def lookup? (cache : Cache) (files : FileView) (path : Path) : Option (List String) :=
  match cache.held? path with
  | none => none
  | some entry =>
      if entry.fingerprint.quickChanged files path && entry.fingerprint.contentChanged files path
      then none
      else some entry.classes

/-- Keeps a listing, under the first spelling of its path. -/
def keep (cache : Cache) (listing : CachedListing) : Cache :=
  { cache with
    listings := cache.listings.update listing.path.components fun
      | none => listing
      | some held => { listing with path := held.path } }

/-- Keeps the classes of the jar at a path, if its file can be read. -/
def insert? (cache : Cache) (files : FileView) (path : Path) (classes : List String) :
    Option Cache :=
  (Fingerprint.at? files path).map fun print => cache.keep ⟨path, print, classes⟩

/-- The cache after an attempt to keep the classes of a jar, and whether they are kept. -/
def insert (cache : Cache) (files : FileView) (path : Path) (classes : List String) :
    Cache × Bool :=
  match cache.insert? files path classes with
  | some changed => (changed, true)
  | none => (cache, false)

/-- Without the listings of jars that are gone. -/
def prune (cache : Cache) (files : FileView) : Cache :=
  { cache with listings := cache.listings.filter fun (_, held) => files.exists held.path }

/-! ## Statistics -/

/-- The number of classes in all listings. -/
def classCount (cache : Cache) : Nat :=
  cache.listings.values.foldl (fun total held => total + held.classes.length) 0

def statistics (cache : Cache) : String :=
  toString cache.listings.size ++ " artifacts, " ++ toString cache.classCount ++ " classes cached"

/-! ## Facts -/

theorem held?_keep (cache : Cache) (listing : CachedListing) :
    (cache.keep listing).held? listing.path =
      some { listing with path := cache.spelling listing.path } := by
  rw [held?, keep, Assoc.get?_update_self, spelling, held?]
  cases cache.listings.get? listing.path.components <;> rfl

/-- What was just inserted is found. -/
theorem lookup?_insert? {cache changed : Cache} {files : FileView} {path : Path}
    {classes : List String} (inserted : cache.insert? files path classes = some changed) :
    changed.lookup? files path = some classes := by
  obtain ⟨print, taken, rfl⟩ := Option.map_eq_some_iff.mp inserted
  rw [lookup?, held?_keep cache ⟨path, print, classes⟩]
  simp [Fingerprint.not_changed_of_at? taken]

end Cache

end DependencyAudit
