/-
# DependencyAudit.Proofs.CacheHistory -- a cache that is never noticed

A cache lives through many moments: files change in whatever way, class paths are indexed with
it, listings of jars that are gone are dropped, and it is stored and loaded again.  A `History`
is the files at all these moments, the latest first, with the cache that they led to.

What carries a history is that every listing in the cache was once that of its path
(`Backed`): at some moment a file lay there, in some spelling of the path, that had this
fingerprint and held these classes.  All steps keep that (`sound_of_history`), whether they
succeed or not, since a listing is only ever added from a jar that was just listed.  Nothing is
added for a directory (`held?_populateWith_of_isDirectory`).

A fingerprint does not tell all files apart.  As long as it does so in the history
(`Faithful`), a listing that is good by its fingerprint is that of the file there
(`Sound.lookup?_eq_some`), and indexing with the cache comes to the same as indexing without it
(`populateWith_of_history`).  So does a whole audit (`classifyWith_of_history`).
-/
import DependencyAudit.Classification
import DependencyAudit.Proofs.StoredCaches
import Mathlib.Data.Bool.Basic

namespace DependencyAudit

open Indexing

set_option autoImplicit false

/-! ## Histories -/

/-- The files at the moments of a history, the latest first, and the cache that it led to. -/
inductive History : List FileSystem → Cache → Prop where
  /-- It begins with an empty cache. -/
  | start (files : FileSystem) (second : Nat) : History [files] (Cache.begun second)
  /-- Files are written, touched, replaced or removed, in any way. -/
  | change {moments : List FileSystem} {cache : Cache} (history : History moments cache)
      (files : FileSystem) : History (files :: moments) cache
  /-- A class path is indexed with the cache, with success or not. -/
  | populate {files : FileSystem} {past : List FileSystem} {cache : Cache}
      (history : History (files :: past) cache) (artifacts : List ResolvedArtifact) :
      History (files :: past) (populateWith cache files artifacts).1
  | prune {files : FileSystem} {past : List FileSystem} {cache : Cache}
      (history : History (files :: past) cache) : History (files :: past) (cache.prune files)
  /-- The cache is stored, and loaded from there before anybody else writes to its file. -/
  | reload {files : FileSystem} {past : List FileSystem} {cache : Cache}
      (history : History (files :: past) cache) (path : Path) {saved later : FileSystem}
      (between : List FileSystem) {loaded : Cache} (stored : cache.save files path = (saved, true))
      (kept : later.read? path = saved.read? path) (read : Cache.load later path = .ok loaded) :
      History (later :: (between ++ saved :: files :: past)) loaded

/-- Whenever one path, in whatever spellings, held files of the same second and size or of the
same digest, it held the same content. -/
def Faithful (moments : List FileSystem) : Prop :=
  ∀ files ∈ moments, ∀ others ∈ moments, ∀ path other, Path.Same path other →
    ∀ content held, files.fileAt? path = some content → others.fileAt? other = some held →
      (content.second = held.second ∧ content.size = held.size) ∨ content.digest = held.digest →
      content.octets = held.octets

/-! ## What a cache goes back to -/

/-- At some moment a listing was that of its path. -/
def Backed (moments : List FileSystem) (key : List Path.Component) (listing : CachedListing) :
    Prop :=
  ∃ files ∈ moments, ∃ path content, Path.components path = key ∧
    files.fileAt? path = some content ∧ listing.fingerprint = .ofContent content ∧
    ClassListing.ofJar files path = .ok listing.classes

/-- Every listing of a cache is kept under its path, and was once that of its path. -/
structure Sound (moments : List FileSystem) (cache : Cache) : Prop where
  keyed : cache.Keyed
  backed : ∀ entry ∈ cache.listings.entries, Backed moments entry.1 entry.2

namespace Sound

variable {moments : List FileSystem} {cache : Cache} {files : FileSystem}

theorem mono (sound : Sound moments cache) {more : List FileSystem} (subset : moments ⊆ more) :
    Sound more cache where
  keyed := sound.keyed
  backed := by
    intro entry member
    obtain ⟨files, among, rest⟩ := sound.backed entry member
    exact ⟨files, subset among, rest⟩

theorem begun (second : Nat) : Sound moments (Cache.begun second) where
  keyed := Cache.keyed_begun second
  backed := by simp [Cache.begun, Assoc.empty]

theorem prune (sound : Sound moments cache) (files : FileView) :
    Sound moments (cache.prune files) where
  keyed := Cache.keyed_prune sound.keyed files
  backed := fun entry member => sound.backed entry (List.mem_filter.mp member).1

/-- The listing of a jar that was just listed may be kept. -/
theorem insert? (sound : Sound moments cache) (now : files ∈ moments) {path : Path}
    {classes : List String} (listed : ClassListing.ofJar files path = .ok classes)
    {changed : Cache} (inserted : cache.insert? files path classes = some changed) :
    Sound moments changed := by
  obtain ⟨print, taken, rfl⟩ := Option.map_eq_some_iff.mp inserted
  rw [Fingerprint.at?_view] at taken
  obtain ⟨content, held, rfl⟩ := Option.map_eq_some_iff.mp taken
  refine ⟨Cache.keyed_keep sound.keyed _, fun entry member => ?_⟩
  rcases Cache.mem_updateEntries member with old | ⟨first, rfl, _⟩
  · exact sound.backed entry old
  · refine ⟨files, now, path, content, rfl, held, ?_, ?_⟩
    · cases first <;> rfl
    · cases first <;> exact listed

end Sound

/-! ## Indexing -/

section Indexing

variable {moments : List FileSystem} {cache : Cache} {files : FileSystem}

/-- The classes of a jar depend on its octets alone. -/
theorem ofJar_of_same_octets {others : FileSystem} {path other : Path} {content held : FileContent}
    (here : files.fileAt? path = some content) (there : others.fileAt? other = some held)
    (same : content.octets = held.octets) :
    ClassListing.ofJar files path = ClassListing.ofJar others other := by
  rw [ClassListing.ofJar, ClassListing.ofJar, FileSystem.read?, FileSystem.read?, here, there,
    Option.map_some, Option.map_some, same]

/-- A fingerprint without a change is that of the file, in one way or the other. -/
theorem exists_of_unchanged {print : Fingerprint} {path : Path}
    (unchanged : (print.quickChanged files path && print.contentChanged files path) = false) :
    ∃ content, files.fileAt? path = some content ∧
      ((print.second = content.second ∧ print.size = content.size) ∨
        print.digest = content.digest) := by
  rcases Bool.and_eq_false_iff.mp unchanged with quick | slow
  · obtain ⟨_, known, second, size⟩ := Fingerprint.quickChanged_eq_false_iff.mp quick
    obtain ⟨content, held, rfl⟩ := Option.map_eq_some_iff.mp known
    rw [FileContent.second_status] at second
    exact ⟨content, held, .inl ⟨second.symm, size.symm⟩⟩
  · obtain ⟨_, read, digest⟩ := Fingerprint.contentChanged_eq_false_iff.mp slow
    obtain ⟨content, held, rfl⟩ := Option.map_eq_some_iff.mp read
    exact ⟨content, held, .inr digest.symm⟩

/-- A listing that is good by its fingerprint is that of the file. -/
theorem Sound.lookup?_eq_some (sound : Sound moments cache) (faithful : Faithful moments)
    (now : files ∈ moments) {path : Path} {classes : List String}
    (found : cache.lookup? files path = some classes) :
    files.exists path = true ∧ ClassListing.ofJar files path = .ok classes := by
  unfold Cache.lookup? at found
  split at found
  · cases found
  · rename_i listing held
    split at found
    · cases found
    · rename_i unchanged
      cases found
      obtain ⟨content, there, alike⟩ := exists_of_unchanged (Bool.eq_false_of_not_eq_true unchanged)
      obtain ⟨entry, first, rfl⟩ := Option.map_eq_some_iff.mp held
      have key : entry.1 = path.components := by simpa using List.find?_some first
      obtain ⟨past, among, other, before, spelled, here, print, listed⟩ :=
        sound.backed entry (List.mem_of_find?_eq_some first)
      rw [print] at alike
      have same := faithful past among files now other path (spelled.trans key) before content here
        there alike
      rw [← ofJar_of_same_octets here there same]
      exact ⟨FileSystem.fileAt?_exists there, listed⟩

/-- Listing with the cache comes to the same classes or the same failure. -/
theorem Sound.listWith_eq (sound : Sound moments cache) (faithful : Faithful moments)
    (now : files ∈ moments) (artifact : ResolvedArtifact) :
    (listWith cache files artifact).map Listing.classes? =
      (list files artifact).map Listing.classes? := by
  unfold listWith list
  cases artifact.container? files with
  | none => rfl
  | some container =>
      cases container with
      | directory => rfl
      | jar =>
          cases found : cache.lookup? files artifact.file with
          | none => rfl
          | some classes =>
              obtain ⟨present, listed⟩ := sound.lookup?_eq_some faithful now found
              simp [scan, present, ClassListing.ofContainer, listed, Except.map, Except.mapError,
                Listing.classes?]

/-- Indexing what was listed with the cache comes to the same as listing afresh. -/
theorem Sound.collect_eq (sound : Sound moments cache) (faithful : Faithful moments)
    (now : files ∈ moments) :
    ∀ (artifacts : List ResolvedArtifact) (sofar : Cache) (index : ClassIndex),
      (collect files (artifacts.map fun artifact => (artifact, listWith cache files artifact))
        sofar index).2 = populateFrom files artifacts index
  | [], _, _ => rfl
  | artifact :: rest, sofar, index => by
      have same := sound.listWith_eq faithful now artifact
      have tail := Sound.collect_eq sound faithful now rest
      rw [List.map_cons, populateFrom]
      cases fresh : list files artifact with
      | error error =>
          cases cached : listWith cache files artifact with
          | error other =>
              rw [fresh, cached] at same
              cases same
              rfl
          | ok listing =>
              rw [fresh, cached] at same
              cases same
      | ok listing =>
          cases cached : listWith cache files artifact with
          | error other =>
              rw [fresh, cached] at same
              cases same
          | ok other =>
              rw [fresh, cached] at same
              have classes : other.classes? = listing.classes? := Except.ok.inj same
              have added : add index artifact other = add index artifact listing := by
                rw [add, add, classes]
              rw [collect, tail, added]

/-- Only a jar whose classes were just listed is a scanned jar. -/
theorem ofJar_of_listWith {artifact : ResolvedArtifact} {classes : List String}
    (listed : listWith cache files artifact = .ok (.scanned .jar classes)) :
    ClassListing.ofJar files artifact.file = .ok classes := by
  have scanned : ∀ container, scan files artifact container = .ok (.scanned .jar classes) →
      container = .jar ∧ ClassListing.ofContainer files container artifact.file = .ok classes := by
    intro container answered
    unfold scan at answered
    split at answered
    · cases answered
    · obtain ⟨others, found, same⟩ := Outcome.map_eq_ok.mp (Outcome.mapError_eq_ok.mp answered)
      cases same
      exact ⟨rfl, found⟩
  unfold listWith at listed
  split at listed
  · cases listed
  · exact absurd (scanned _ listed).1 (by decide)
  · split at listed
    · cases listed
    · exact (scanned _ listed).2

/-- What holds of a cache holds after indexing, if keeping a jar that was just listed preserves
it. -/
theorem populateWith_preserves {property : Cache → Prop}
    (kept : ∀ before after path classes, property before →
      ClassListing.ofJar files path = .ok classes →
      before.insert? files path classes = some after → property after)
    (holds : property cache) (artifacts : List ResolvedArtifact) :
    property (populateWith cache files artifacts).1 := by
  -- The listings are those of the cache at the start, while the cache itself goes on.
  have collected : ∀ (artifacts : List ResolvedArtifact) (sofar : Cache) (index : ClassIndex),
      property sofar →
      property (collect files (artifacts.map fun artifact =>
        (artifact, listWith cache files artifact)) sofar index).1 := by
    intro artifacts
    induction artifacts with
    | nil => exact fun _ _ reached => reached
    | cons artifact rest later =>
        intro sofar index reached
        rw [List.map_cons]
        cases listed : listWith cache files artifact with
        | error error => exact reached
        | ok listing =>
            refine later _ _ ?_
            unfold keep
            split
            · unfold Cache.insert
              split
              · rename_i inserted
                exact kept _ _ _ _ reached (ofJar_of_listWith listed) inserted
              · exact reached
            · exact reached
  exact collected artifacts cache .empty holds

theorem Sound.populateWith (sound : Sound moments cache) (now : files ∈ moments)
    (artifacts : List ResolvedArtifact) :
    Sound moments (populateWith cache files artifacts).1 :=
  populateWith_preserves (fun _ _ _ _ before listed inserted => before.insert? now listed inserted)
    sound artifacts

/-- Nothing is kept for a directory. -/
theorem held?_populateWith_of_isDirectory {path : Path}
    (directory : files.isDirectory path = true) (artifacts : List ResolvedArtifact) :
    (Indexing.populateWith cache files artifacts).1.held? path = cache.held? path := by
  have kept : ∀ (before after : Cache) jar classes, before.held? path = cache.held? path →
      ClassListing.ofJar files jar = .ok classes →
      before.insert? files jar classes = some after → after.held? path = cache.held? path := by
    intro before after jar classes reached _ inserted
    obtain ⟨print, taken, rfl⟩ := Option.map_eq_some_iff.mp inserted
    rw [Fingerprint.at?_view] at taken
    obtain ⟨content, held, _⟩ := Option.map_eq_some_iff.mp taken
    have other : path.components ≠ jar.components := by
      intro same
      rw [FileSystem.isDirectory_of_same_file (Path.Same.symm same) held] at directory
      cases directory
    rw [← reached, Cache.held?, Cache.keep, Assoc.get?_update_of_ne _ _ other, Cache.held?]
  exact populateWith_preserves kept rfl artifacts

end Indexing

/-! ## The whole -/

/-- Every listing of the cache of a history goes back to one of its moments. -/
theorem sound_of_history {moments : List FileSystem} {cache : Cache}
    (history : History moments cache) : Sound moments cache := by
  induction history with
  | start files second => exact .begun second
  | change _ files sound => exact sound.mono (List.subset_cons_self files _)
  | populate _ artifacts sound => exact sound.populateWith List.mem_cons_self artifacts
  | prune _ sound => exact sound.prune _
  | reload _ path between stored kept read sound =>
      rw [Cache.load_of_save sound.keyed stored kept] at read
      cases read
      refine sound.mono fun files member => List.mem_cons_of_mem _ (List.mem_append_right _ ?_)
      exact List.mem_cons_of_mem _ member

/-- **A cache is never noticed.**  In every history in which fingerprints tell files apart,
indexing with the cache comes to the same index or the same failure as indexing without it,
and leaves what is held for directories as it was. -/
theorem populateWith_of_history {files : FileSystem} {past : List FileSystem} {cache : Cache}
    (history : History (files :: past) cache) (faithful : Faithful (files :: past))
    (artifacts : List ResolvedArtifact) :
    (populateWith cache files artifacts).2 = populate files artifacts ∧
      ∀ path, files.isDirectory path = true →
        (populateWith cache files artifacts).1.held? path = cache.held? path := by
  have sound := sound_of_history history
  refine ⟨?_, fun path directory => ?_⟩
  · exact sound.collect_eq faithful List.mem_cons_self artifacts cache .empty
  · exact held?_populateWith_of_isDirectory directory artifacts

/-- An audit with the cache finds what an audit without it finds. -/
theorem classifyWith_of_history {files : FileSystem} {past : List FileSystem} {cache : Cache}
    (history : History (files :: past) cache) (faithful : Faithful (files :: past))
    (settings : Settings) (manifest : Manifest) (references : References) :
    (Classification.classifyWith cache settings files manifest references).2 =
      Classification.classify settings files manifest references := by
  unfold Classification.classifyWith Classification.classify
  cases Classification.classPath settings manifest with
  | error error => rfl
  | ok artifacts =>
      have same : (populateWith cache files artifacts).2 = populate files artifacts :=
        (sound_of_history history).collect_eq faithful List.mem_cons_self artifacts cache .empty
      change (populateWith cache files artifacts).2.bind _ = (populate files artifacts).bind _
      rw [same]

/-! ## A jar that is replaced and then touched, and one that becomes a directory -/

namespace Touched

def shorter : List UInt8 := Archive.Zip.write [⟨"A.class", []⟩]

def longer : List UInt8 := Archive.Zip.write [⟨"p/B.class", []⟩]

def first : FileSystem where
  entries := [(["lib.jar"], .file ⟨shorter, 5⟩), (["old.jar"], .file ⟨shorter, 5⟩)]
  workingDirectory := []
  clock := 6

def replaced : FileSystem where
  entries := [(["lib.jar"], .file ⟨longer, 9⟩), (["old.jar"], .file ⟨shorter, 5⟩)]
  workingDirectory := []
  clock := 10

def touched : FileSystem where
  entries := [(["lib.jar"], .file ⟨longer, 12⟩), (["old.jar"], .directory)]
  workingDirectory := []
  clock := 13

def library : ResolvedArtifact := ⟨.module "g" "lib" (some "1"), ⟨"lib.jar"⟩, none⟩

def other : ResolvedArtifact := ⟨.module "g" "old" (some "1"), ⟨"old.jar"⟩, none⟩

/-- The files that there are at any time. -/
def contents : List FileContent := [⟨longer, 12⟩, ⟨longer, 9⟩, ⟨shorter, 5⟩]

/-- The cache after the class path was indexed twice. -/
def cache : Cache :=
  (populateWith (populateWith (.begun 0) first [library, other]).1 replaced [library, other]).1

theorem history : History [touched, replaced, first] cache :=
  .change (.populate (.change (.populate (.start first 0) _) replaced) _) touched

/-- A file that is found is one of those that are listed. -/
theorem exists_of_fileAt? {files : FileSystem} {path : Path} {content : FileContent}
    (found : files.fileAt? path = some content) :
    ∃ place, (place, .file content) ∈ files.entries := by
  obtain ⟨place, _, there⟩ := Option.bind_eq_some_iff.mp (FileSystem.found?_of_fileAt? found)
  unfold FileSystem.entryAt? at there
  split at there
  · cases there
  · obtain ⟨before, after, same, _⟩ := List.lookup_eq_some_iff.mp there
    exact ⟨place, same ▸ List.mem_append_right before List.mem_cons_self⟩

theorem mem_contents {files : FileSystem} (among : files ∈ [touched, replaced, first])
    {path : Path} {content : FileContent} (found : files.fileAt? path = some content) :
    content ∈ contents := by
  have listed : ∀ files ∈ [touched, replaced, first], ∀ entry ∈ files.entries,
      entry.2 = .directory ∨ entry.2 ∈ contents.map .file := by decide +kernel
  obtain ⟨place, member⟩ := exists_of_fileAt? found
  simpa using listed files among _ member

theorem faithful : Faithful [touched, replaced, first] := by
  have told : ∀ content ∈ contents, ∀ held ∈ contents,
      (content.second = held.second ∧ content.size = held.size) ∨ content.digest = held.digest →
        content.octets = held.octets := by decide +kernel
  intro files among others amongOthers path other _ content held here there
  exact told content (mem_contents among here) held (mem_contents amongOthers there)

end Touched

/-- The library is listed from the cache, by its digest, and nothing is different for it. -/
theorem populateWith_of_history_of_touched :
    listWith Touched.cache Touched.touched Touched.library = .ok (.cached ["p.B"]) ∧
      (populateWith Touched.cache Touched.touched [Touched.library, Touched.other]).2 =
        populate Touched.touched [Touched.library, Touched.other] ∧
      (populateWith Touched.cache Touched.touched
        [Touched.library, Touched.other]).1.held? ⟨"old.jar"⟩ =
          Touched.cache.held? ⟨"old.jar"⟩ := by
  obtain ⟨same, kept⟩ := populateWith_of_history Touched.history Touched.faithful
    [Touched.library, Touched.other]
  refine ⟨?_, same, kept ⟨"old.jar"⟩ (by decide +kernel)⟩
  exact Outcome.toOption_eq_some.mp (by decide +kernel)

end DependencyAudit
