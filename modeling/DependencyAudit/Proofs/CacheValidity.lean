/-
# DependencyAudit.Proofs.CacheValidity -- how long a listing is good

A listing that was kept for a path is held for that path until another one is kept there or it
is dropped.  Whatever else a cache goes through leaves it alone (`Spares.held?`): listings are
kept for other paths, attempts to keep one fail, the cache is stored and loaded again, and
listings of jars that are gone are dropped.  Whether a jar is gone is asked for the spelling
that the cache has for its path, which is the first one that was given (`Cache.spelling`), so
the path must lead somewhere in that spelling.  A cache that is loaded may have a spelling
that never leads anywhere while the path does: `lib.jar/` is the same path as `lib.jar`, and
no path to a regular file (`Slashed`).

As long as the listing is held, looking it up compares what was recorded with what the system
says at that moment, either of the file's status or of its octets (`lookup?_eq_some_iff`), and
so it is found exactly while one of them is as it was (`lookup?_of_spared`).  Which of these
there are is up to the system (`FileView`).

A cache has each listing under its own path (`Keyed`), as all do that are begun, changed or
loaded (`keyed_of_reached`).
-/
import DependencyAudit.Proofs.StoredCaches
import Mathlib.Data.Bool.Basic

namespace DependencyAudit.Cache

set_option autoImplicit false

/-! ## Listings that are kept -/

section Kept

variable {cache : Cache} {files : FileView} {path : Path} {classes : List String}

/-- An attempt that fails changes nothing. -/
theorem insert_fst_of_failed (failed : (cache.insert files path classes).2 = false) :
    (cache.insert files path classes).1 = cache := by
  unfold insert at failed ⊢
  split at failed
  · cases failed
  · rfl

theorem insert_eq_keep (done : (cache.insert files path classes).2 = true) :
    ∃ print, Fingerprint.at? files path = some print ∧
      (cache.insert files path classes).1 = cache.keep ⟨path, print, classes⟩ := by
  unfold insert at done ⊢
  split at done
  · rename_i changed inserted
    obtain ⟨print, taken, rfl⟩ := Option.map_eq_some_iff.mp inserted
    exact ⟨print, taken, rfl⟩
  · cases done

/-- Either the listing is kept or nothing changes. -/
theorem insert_fst_cases (cache : Cache) (files : FileView) (path : Path)
    (classes : List String) :
    (cache.insert files path classes).1 = cache ∨
      ∃ print, (cache.insert files path classes).1 = cache.keep ⟨path, print, classes⟩ := by
  cases done : (cache.insert files path classes).2 with
  | false => exact .inl (insert_fst_of_failed done)
  | true =>
      obtain ⟨print, _, same⟩ := insert_eq_keep done
      exact .inr ⟨print, same⟩

theorem keyed_insert (keyed : cache.Keyed) (files : FileView) (path : Path)
    (classes : List String) : (cache.insert files path classes).1.Keyed := by
  rcases insert_fst_cases cache files path classes with same | ⟨print, same⟩
  · rwa [same]
  · rw [same]
    exact keyed_keep keyed _

/-- What is kept is held from then on, in the spelling that the path had before. -/
theorem held?_insert_self (done : (cache.insert files path classes).2 = true) :
    ∃ print, Fingerprint.at? files path = some print ∧
      (cache.insert files path classes).1.held? path =
        some ⟨cache.spelling path, print, classes⟩ := by
  obtain ⟨print, taken, same⟩ := insert_eq_keep done
  rw [same]
  exact ⟨print, taken, held?_keep cache ⟨path, print, classes⟩⟩

/-- Another path, or an attempt that fails, changes nothing of what is held. -/
theorem held?_insert_of_apart {other : Path}
    (apart : ¬ Path.Same other path ∨ (cache.insert files other classes).2 = false) :
    (cache.insert files other classes).1.held? path = cache.held? path := by
  rcases apart with distinct | failed
  · rcases insert_fst_cases cache files other classes with same | ⟨print, same⟩
    · rw [same]
    · rw [same]
      exact Assoc.get?_update_of_ne _ _ fun equal => distinct equal.symm
  · rw [insert_fst_of_failed failed]

/-- A listing is dropped if its path, as it is spelled there, leads nowhere. -/
theorem held?_prune (cache : Cache) (files : FileView) (path : Path) :
    (cache.prune files).held? path =
      (cache.held? path).filter fun listing => files.exists listing.path :=
  Assoc.get?_filter cache.listings _ path.components

end Kept

/-! ## What spares a listing -/

/-- From one cache to a later one, nothing is done to what is held for a path, which is spelled
in some way. -/
inductive Spares (path spelled : Path) : Cache → Cache → Prop where
  | refl (cache : Cache) : Spares path spelled cache cache
  /-- A listing is kept for another path, or an attempt to keep one fails. -/
  | insert {cache later : Cache} (spared : Spares path spelled cache later) (files : FileView)
      (other : Path) (classes : List String)
      (apart : ¬ Path.Same other path ∨ (later.insert files other classes).2 = false) :
      Spares path spelled cache (later.insert files other classes).1
  /-- Listings of jars that are gone are dropped while the path is not. -/
  | prune {cache later : Cache} (spared : Spares path spelled cache later) (files : FileView)
      (present : files.exists spelled = true) : Spares path spelled cache (later.prune files)
  /-- The cache is stored, its entries in any order, and loaded from there. -/
  | reload {cache later : Cache} (spared : Spares path spelled cache later) {written : Cache}
      (order : written.Rearranged later) {files saved after : FileSystem} {target : Path}
      (stored : written.save files target = (saved, true))
      (kept : after.read? target = saved.read? target) {loaded : Cache}
      (read : Cache.load after target = .ok loaded) : Spares path spelled cache loaded

/-- What was held at the start is held at the end. -/
theorem Spares.held? {path : Path} {cache later : Cache} {listing : CachedListing}
    (spared : Spares path listing.path cache later) (keyed : cache.Keyed)
    (held : cache.held? path = some listing) :
    later.Keyed ∧ later.held? path = some listing := by
  induction spared with
  | refl => exact ⟨keyed, held⟩
  | insert _ files other classes apart before =>
      obtain ⟨keyed, held⟩ := before
      exact ⟨keyed_insert keyed files other classes, (held?_insert_of_apart apart).trans held⟩
  | prune _ files present before =>
      obtain ⟨keyed, held⟩ := before
      refine ⟨keyed_prune keyed files, ?_⟩
      rw [held?_prune, held]
      exact if_pos present
  | reload _ order stored kept read before =>
      obtain ⟨keyed, held⟩ := before
      have again := order.keyed keyed
      rw [load_of_save again stored kept] at read
      cases read
      exact ⟨again, (order.held? path).trans held⟩

/-! ## Looking up -/

section Lookup

variable {cache : Cache} {files : FileView} {path : Path} {listing : CachedListing}

/-- A listing is found as long as the status or the octets of the file are those that were
recorded. -/
theorem lookup?_eq_some_iff (held : cache.held? path = some listing) :
    cache.lookup? files path = some listing.classes ↔
      (∃ status, files.status? path = some status ∧ status.second = listing.fingerprint.second ∧
        status.size = listing.fingerprint.size) ∨
      (∃ octets, files.octets? path = some octets ∧
        Octets.digest octets = listing.fingerprint.digest) := by
  rw [← Fingerprint.quickChanged_eq_false_iff, ← Fingerprint.contentChanged_eq_false_iff,
    ← Bool.and_eq_false_iff]
  simp only [lookup?, held]
  split
  · rename_i changed
    simp [changed]
  · rename_i unchanged
    simp [Bool.eq_false_of_not_eq_true unchanged]

theorem lookup?_eq_none_or (held : cache.held? path = some listing) :
    cache.lookup? files path = none ∨ cache.lookup? files path = some listing.classes := by
  simp only [lookup?, held]
  split
  · exact .inl rfl
  · exact .inr rfl

/-- Nothing is found where nothing is. -/
theorem lookup?_of_absent (absent : files.exists path = false) :
    cache.lookup? files path = none := by
  have status : files.status? path = none := by
    rw [← Option.not_isSome_iff_eq_none]
    exact fun known => by simp [files.exists_of_status path known] at absent
  have octets : files.octets? path = none := by
    rw [← Option.not_isSome_iff_eq_none]
    exact fun known => by simp [files.exists_of_octets path known] at absent
  unfold lookup?
  split
  · rfl
  · simp [Fingerprint.quickChanged, Fingerprint.contentChanged, status, octets]

theorem lookup?_of_held? {other : Cache} (same : other.held? path = cache.held? path) :
    other.lookup? files path = cache.lookup? files path := by
  rw [lookup?, lookup?, same]

/-- What is dropped was not found either, if a path that leads somewhere does so in its
spelling. -/
theorem lookup?_prune
    (spelled : files.exists path = true → files.exists (cache.spelling path) = true) :
    (cache.prune files).lookup? files path = cache.lookup? files path := by
  cases held : cache.held? path with
  | none =>
      refine lookup?_of_held? ?_
      rw [held?_prune, held]
      rfl
  | some listing =>
      cases present : files.exists path with
      | false => rw [lookup?_of_absent present, lookup?_of_absent present]
      | true =>
          have there : files.exists listing.path = true := by
            simpa [spelling, held] using spelled present
          refine lookup?_of_held? ?_
          rw [held?_prune, held]
          exact if_pos there

end Lookup

/-- **A listing is good as long as its file is the same by status or by content.**  After a
listing was kept for a path, and whatever spared it since: the status and the octets of the
file could be had then, and at any moment the listing is found if and only if the second and
the size are the recorded ones, or the content has the recorded digest.  Otherwise nothing is
found, and nothing is found where nothing is; a file with the same status or the same octets is
always found.  An attempt to keep a listing that fails changes nothing, and dropping the
listings of jars that are gone changes no look-up at that moment of a path that leads somewhere
in its spelling if it does at all. -/
theorem lookup?_of_spared :
    (∀ (cache later : Cache) (first : FileView) (path : Path) (classes : List String),
      cache.Keyed → (cache.insert first path classes).2 = true →
      Spares path (cache.spelling path) (cache.insert first path classes).1 later →
      ∃ status second octets, first.status? path = some status ∧
        status.recorded? = some second ∧ first.octets? path = some octets ∧
        ∀ now : FileView,
          (later.lookup? now path = some classes ↔
            (∃ other, now.status? path = some other ∧ other.second = second ∧
              other.size = status.size) ∨
            (∃ others, now.octets? path = some others ∧
              Octets.digest others = Octets.digest octets)) ∧
          (later.lookup? now path = none ∨ later.lookup? now path = some classes) ∧
          (now.exists path = false → later.lookup? now path = none) ∧
          (now.status? path = some status → later.lookup? now path = some classes) ∧
          (now.octets? path = some octets → later.lookup? now path = some classes)) ∧
    (∀ (cache : Cache) (files : FileView) (path : Path) (classes : List String),
      (cache.insert files path classes).2 = false →
      (cache.insert files path classes).1 = cache) ∧
    (∀ (cache : Cache) (files : FileView) (path : Path),
      (files.exists path = true → files.exists (cache.spelling path) = true) →
      (cache.prune files).lookup? files path = cache.lookup? files path) := by
  refine ⟨?_, fun _ _ _ _ failed => insert_fst_of_failed failed,
    fun _ _ _ spelled => lookup?_prune spelled⟩
  intro cache later first path classes keyed done spared
  obtain ⟨print, taken, inserted⟩ := held?_insert_self done
  obtain ⟨status, second, octets, known, recorded, read, rfl⟩ :=
    Fingerprint.at?_eq_some_iff.mp taken
  obtain ⟨_, held⟩ := spared.held? (keyed_insert keyed first path classes) inserted
  refine ⟨status, second, octets, known, recorded, read, fun now => ?_⟩
  have good := @lookup?_eq_some_iff later now path _ held
  refine ⟨good, lookup?_eq_none_or held, lookup?_of_absent, fun same => ?_, fun same => ?_⟩
  · exact good.mpr (.inl ⟨status, same, FileStatus.recorded?_eq_some recorded, rfl⟩)
  · exact good.mpr (.inr ⟨octets, same, rfl⟩)

/-! ### A jar that is listed again in another spelling -/

namespace Respelled

def path : Path := ⟨"d/lib.jar"⟩

/-- Both jars, the first of them changed before the epoch. -/
def files : FileSystem where
  entries := [(["d"], .directory), (["d", "lib.jar"], .file ⟨[1, 2, 3], -5⟩),
    (["d", "b.jar"], .file ⟨[4], 7⟩)]
  workingDirectory := []
  clock := 0

/-- The jar is touched. -/
def touched : FileSystem where
  entries := [(["d"], .directory), (["d", "lib.jar"], .file ⟨[1, 2, 3], 60⟩)]
  workingDirectory := []
  clock := 60

/-- Another jar is put in its place. -/
def replaced : FileSystem where
  entries := [(["d"], .directory), (["d", "lib.jar"], .file ⟨[1, 2, 4], 60⟩)]
  workingDirectory := []
  clock := 60

/-- The jar is there, changed in another second before the epoch, and cannot be read. -/
def barred : FileView where
  status? other := if other = path then some ⟨some (-9), 3⟩ else none
  octets? _ := none
  «exists» other := other = path
  exists_of_status other known := by
    split at known
    · simpa
    · cases known
  exists_of_octets _ known := by cases known

def before : Cache :=
  ((begun 0).insert files ⟨"d//lib.jar"⟩ ["p.Old"]).1

def inserted : Cache :=
  (before.insert files path ["p.A"]).1

def grown : Cache :=
  (inserted.insert files ⟨"d/b.jar"⟩ ["p.B"]).1

def later : Cache :=
  ((grown.prune touched).insert touched ⟨"gone.jar"⟩ ["p.C"]).1

def target : Path := ⟨"c/cache.json"⟩

theorem keyed_before : before.Keyed :=
  keyed_insert (keyed_begun 0) files ⟨"d//lib.jar"⟩ ["p.Old"]

theorem spelling_path : before.spelling path = ⟨"d//lib.jar"⟩ := by
  decide

theorem keyed_later : later.Keyed :=
  keyed_insert (keyed_prune
    (keyed_insert (keyed_insert keyed_before files path _) files _ _) _) touched _ _

/-- All that may happen to the cache does. -/
theorem spared : Spares path (before.spelling path) inserted later := by
  have grows : Spares path (before.spelling path) inserted grown :=
    .insert (.refl inserted) files ⟨"d/b.jar"⟩ ["p.B"] (.inl (by decide))
  have pruned : Spares path (before.spelling path) inserted (grown.prune touched) :=
    .prune grows touched (by rw [spelling_path]; decide)
  have attempted : Spares path (before.spelling path) inserted later :=
    .insert pruned touched ⟨"gone.jar"⟩ ["p.C"] (.inr (by decide))
  have stored : later.save files target = ((later.save files target).1, true) :=
    Prod.ext rfl (by decide)
  exact .reload attempted ⟨rfl, .refl _⟩ stored rfl (load_of_save keyed_later stored rfl)

end Respelled

/-- The listing is found while the jar is only touched or cannot be read, and not once another
jar is in its place. -/
theorem lookup?_of_spared_of_respelled :
    (Respelled.before.insert Respelled.files Respelled.path ["p.A"]).2 = true ∧
      Respelled.later.lookup? Respelled.touched Respelled.path = some ["p.A"] ∧
      Respelled.later.lookup? Respelled.barred Respelled.path = some ["p.A"] ∧
      Respelled.later.lookup? Respelled.replaced Respelled.path = none ∧
      (Respelled.later.prune Respelled.replaced).lookup? Respelled.replaced Respelled.path =
        none := by
  obtain ⟨good, _, dropping⟩ := lookup?_of_spared
  have done : (Respelled.before.insert Respelled.files Respelled.path ["p.A"]).2 = true := by
    decide
  obtain ⟨status, second, octets, known, recorded, read, answers⟩ :=
    good Respelled.before Respelled.later Respelled.files Respelled.path ["p.A"]
      Respelled.keyed_before done Respelled.spared
  have sameStatus : status = ⟨some (-5), 3⟩ :=
    Option.some.inj (known.symm.trans (by decide))
  have sameOctets : octets = [1, 2, 3] := Option.some.inj (read.symm.trans (by decide))
  subst sameStatus sameOctets
  have sameSecond : second = 0 := Option.some.inj (recorded.symm.trans (by decide))
  subst sameSecond
  have replaced : Respelled.later.lookup? Respelled.replaced Respelled.path = none := by
    obtain ⟨exactly, found, _⟩ := answers Respelled.replaced
    refine found.resolve_right fun found => ?_
    rcases exactly.mp found with ⟨other, seen, same, _⟩ | ⟨others, seen, same⟩
    · have other_eq : other = ⟨some 60, 3⟩ :=
        Option.some.inj (seen.symm.trans (by decide))
      subst other_eq
      revert same
      decide
    · have others_eq : others = [1, 2, 4] :=
        Option.some.inj (seen.symm.trans (by decide))
      subst others_eq
      revert same
      decide
  refine ⟨done, (answers Respelled.touched).2.2.2.2 (by decide), ?_, replaced, ?_⟩
  · exact (answers Respelled.barred).1.mpr (.inl ⟨⟨some (-9), 3⟩, by decide, by decide, rfl⟩)
  · rw [dropping Respelled.later Respelled.replaced Respelled.path (fun _ => by decide)]
    exact replaced

/-! ### A path that is kept in a spelling that leads nowhere -/

namespace Slashed

def path : Path := ⟨"lib.jar"⟩

/-- A cache in which the path of a jar has a slash behind it. -/
def loaded : Cache :=
  (⟨.empty, 0⟩ : Cache).keep ⟨⟨"lib.jar/"⟩, ⟨0, 0, "x"⟩, ["Old"]⟩

/-- The jar, and the cache in a file. -/
def files : FileSystem where
  entries := [(["lib.jar"], .file ⟨[98, 121, 116, 101, 115], 1700000000⟩),
    (["c.json"], .file ⟨Text.Utf8.encodeString loaded.toJson.compact, 1700000000⟩)]
  workingDirectory := []
  clock := 0

def inserted : Cache :=
  (loaded.insert files path ["A"]).1

end Slashed

/-- There the listing is kept for the jar and dropped again at once, while the jar is there, as
though it were gone. -/
theorem not_found_of_slashed :
    Cache.load Slashed.files ⟨"c.json"⟩ = .ok Slashed.loaded ∧
      (Slashed.loaded.insert Slashed.files Slashed.path ["A"]).2 = true ∧
      Slashed.files.exists Slashed.path = true ∧
      Spares Slashed.path Slashed.path Slashed.inserted
        (Slashed.inserted.prune Slashed.files) ∧
      Slashed.inserted.lookup? Slashed.files Slashed.path = some ["A"] ∧
      (Slashed.inserted.prune Slashed.files).lookup? Slashed.files Slashed.path = none := by
  have present : Slashed.files.exists Slashed.path = true := by decide
  have keyed : Slashed.loaded.Keyed := keyed_ofListings 0 [_]
  refine ⟨?_, by decide, present, .prune (.refl _) _ present, by decide,
    by decide⟩
  have octets : Slashed.files.read? ⟨"c.json"⟩ =
      some (Text.Utf8.encodeString Slashed.loaded.toJson.compact) := rfl
  obtain ⟨content, file, _⟩ := Option.map_eq_some_iff.mp octets
  rw [Cache.load, FileSystem.found?_of_fileAt? file, octets]
  change ofOctets _ = _
  rw [ofOctets_toJson, ofListings_values keyed]

end DependencyAudit.Cache
