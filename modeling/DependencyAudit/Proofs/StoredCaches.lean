/-
# DependencyAudit.Proofs.StoredCaches -- caches that are stored come back

The document of a cache decodes to the listings of the cache, one by one (`decodes_cache`).

From its listings a cache is put together again, in the same order, if each of them is kept
under its own path (`Keyed`); every change to a cache sees to that (`keyed_of_reached`).  So a
cache that was stored is loaded again, just as it was (`load_of_save`).  The order in which its
entries are written does not matter (`load_of_save_rearranged`), since a path has one entry at
most.
-/
import DependencyAudit.Cache.Stored
import DependencyAudit.Proofs.Decoders
import DependencyAudit.Proofs.JsonText
import DependencyAudit.Proofs.TextOctets
import DependencyAudit.Proofs.Ways

namespace DependencyAudit

set_option autoImplicit false

/-! ## Documents of caches -/

open Document

theorem Fingerprint.decodes_word (word : UInt64) :
    Decodes (wordOfDocument (ofJson (.ofNat word.toNat))) word := by
  refine (decodes_natural word.toNat_lt).bind ?_
  rw [UInt64.ofNat_toNat]
  exact decodes_pure word

theorem Fingerprint.decodes_print (print : Fingerprint) :
    Decodes (Fingerprint.ofDocument (ofJson print.toJson)) print := by
  have fields : Decodes ((ofJson print.toJson).fields [["mtime"], ["size"], ["content_hash"]])
      [some (ofJson (.ofNat print.second.toNat)), some (ofJson (.ofNat print.size.toNat)),
        some (ofJson (.string print.digest))] := by
    intro anchors hops
    rw [Fingerprint.toJson, ofJson_object]
    rfl
  have second := decodes_word print.second
  have size := decodes_word print.size
  have digest := decodes_text print.digest
  exact fields.bind (second.bind (size.bind (digest.bind (decodes_pure print))))

theorem CachedListing.decodes_listing (listing : CachedListing) :
    Decodes (CachedListing.ofDocument listing.path (ofJson listing.toJson)) listing := by
  have fields : Decodes ((ofJson listing.toJson).fields [["metadata"], ["classes"]])
      [some (ofJson listing.fingerprint.toJson), some (ofJson (.ofTexts listing.classes))] := by
    intro anchors hops
    rw [CachedListing.toJson, ofJson_object]
    rfl
  have print := listing.fingerprint.decodes_print
  have classes := decodes_texts listing.classes
  exact fields.bind (print.bind (classes.bind (decodes_pure listing)))

namespace Cache

theorem decodes_cache (cache : Cache) :
    Decodes (Cache.ofDocument (ofJson cache.toJson))
      (version, ofListings cache.created cache.listings.values) := by
  have fields : Decodes
      ((ofJson cache.toJson).fields [["version"], ["artifacts"], ["created_at"]])
      [some (ofJson (.ofNat version)), some (ofJson cache.listingsToJson),
        some (ofJson (.ofNat cache.created.toNat))] := by
    intro anchors hops
    rw [Cache.toJson, ofJson_object]
    rfl
  have found := decodes_natural (by decide : version < UInt32.size)
  have listings : Decodes (listingsOfDocument (ofJson cache.listingsToJson))
      cache.listings.values := by
    refine decodes_entries (List.forall₂_map_left_iff.mpr ?_)
    exact List.forall₂_same.mpr fun held _ => held.decodes_listing
  have created := Fingerprint.decodes_word cache.created
  exact fields.bind (found.bind (listings.bind (created.bind (decodes_pure _))))

theorem written_cache (cache : Cache) : Json.Written cache.toJson := by
  have print : ∀ print : Fingerprint, Json.Written print.toJson := by
    intro print
    refine .object _ fun field member => ?_
    simp only [List.mem_cons, List.not_mem_nil, or_false] at member
    rcases member with rfl | rfl | rfl
    · exact .natural _
    · exact .natural _
    · exact .text _
  have listing : ∀ listing : CachedListing, Json.Written listing.toJson := by
    intro listing
    refine .object _ fun field member => ?_
    simp only [List.mem_cons, List.not_mem_nil, or_false] at member
    rcases member with rfl | rfl
    · exact print _
    · exact Json.written_texts _
  refine .object _ fun field member => ?_
  simp only [List.mem_cons, List.not_mem_nil, or_false] at member
  rcases member with rfl | rfl | rfl
  · exact .natural _
  · refine .object _ fun entry among => ?_
    obtain ⟨held, _, rfl⟩ := List.mem_map.mp among
    exact listing held
  · exact .natural _

/-- The octets of a cache decode to the version and the cache that its listings make. -/
theorem decode_octets (cache : Cache) :
    (Document.ofJsonOctets (Text.Utf8.encodeString cache.toJson.compact)).bind
        (·.decode ofDocument) =
      some (version, ofListings cache.created cache.listings.values) := by
  have parsed : Document.ofJsonOctets (Text.Utf8.encodeString cache.toJson.compact) =
      some (alone (ofJson cache.toJson)) := by
    rw [Document.ofJsonOctets, Text.Utf8.decodeUnits_encodeString,
      Json.parseUnits_compact cache.written_cache]
    rfl
  rw [parsed, Option.bind_some, Source.decode, alone, cache.decodes_cache]
  rfl

/-- The octets of a cache are read as the cache that its listings make. -/
theorem ofOctets_toJson (cache : Cache) :
    ofOctets (Text.Utf8.encodeString cache.toJson.compact) =
      .ok (ofListings cache.created cache.listings.values) := by
  rw [ofOctets, decode_octets]
  exact if_pos rfl

/-! ## Caches from their listings -/

/-- Each listing is kept under its own path. -/
def Keyed (cache : Cache) : Prop :=
  ∀ entry ∈ cache.listings.entries, entry.1 = entry.2.path.components

theorem updateEntries_of_new {κ α : Type} [DecidableEq κ] {change : Option α → α} {key : κ} :
    ∀ {entries : List (κ × α)}, key ∉ entries.map Prod.fst →
      Assoc.updateEntries change key entries = entries ++ [(key, change none)]
  | [], _ => rfl
  | (other, value) :: rest, new => by
      rw [List.map_cons, List.mem_cons, not_or] at new
      rw [Assoc.updateEntries, if_neg (Ne.symm new.1), updateEntries_of_new new.2,
        List.cons_append]

theorem foldl_keep {entries : List (List Path.Component × CachedListing)} :
    ∀ {cache : Cache}, ((cache.listings.entries ++ entries).map Prod.fst).Nodup →
      (∀ entry ∈ entries, entry.1 = entry.2.path.components) →
      ((entries.map Prod.snd).foldl keep cache).listings.entries =
          cache.listings.entries ++ entries ∧
        ((entries.map Prod.snd).foldl keep cache).created = cache.created := by
  induction entries with
  | nil =>
      intro cache _ _
      rw [List.append_nil]
      exact ⟨rfl, rfl⟩
  | cons entry rest kept =>
      intro cache distinct keyed
      obtain ⟨own, others⟩ := List.forall_mem_cons.mp keyed
      have new : entry.2.path.components ∉ cache.listings.entries.map Prod.fst := by
        intro present
        rw [List.map_append, List.map_cons, ← own] at *
        exact (List.nodup_append.mp distinct).2.2 _ present _ List.mem_cons_self rfl
      have added : (cache.keep entry.2).listings.entries = cache.listings.entries ++ [entry] := by
        change Assoc.updateEntries _ _ _ = _
        rw [updateEntries_of_new new, ← own]
      have again := @kept (cache.keep entry.2) (by rw [added]; simpa using distinct) others
      rw [added, List.append_assoc] at again
      exact again

theorem eq_of_entries {cache other : Cache}
    (entries : cache.listings.entries = other.listings.entries)
    (created : cache.created = other.created) : cache = other := by
  rcases cache with ⟨⟨first, _⟩, second⟩
  rcases other with ⟨⟨first', _⟩, second'⟩
  simp_all

/-- A cache is made of its listings. -/
theorem ofListings_values {cache : Cache} (keyed : cache.Keyed) :
    ofListings cache.created cache.listings.values = cache := by
  obtain ⟨entries, created⟩ := @foldl_keep cache.listings.entries ⟨.empty, cache.created⟩
    cache.listings.distinct keyed
  exact eq_of_entries entries created

/-- **A cache that was stored is loaded again**, as long as its file stays as it is. -/
theorem load_of_save {cache : Cache} (keyed : cache.Keyed) {files saved later : FileSystem}
    {path : Path} (stored : cache.save files path = (saved, true))
    (kept : later.read? path = saved.read? path) : Cache.load later path = .ok cache := by
  have octets := FileSystem.read?_of_store stored
  rw [← kept] at octets
  obtain ⟨content, file, _⟩ := Option.map_eq_some_iff.mp octets
  rw [Cache.load, FileSystem.found?_of_fileAt? file, octets]
  change ofOctets _ = _
  rw [ofOctets_toJson, ofListings_values keyed]

/-! ## Keys -/

theorem keyed_begun (second : Nat) : (begun second).Keyed := by
  simp [Keyed, begun, Assoc.empty]

theorem mem_updateEntries {κ α : Type} [DecidableEq κ] {change : Option α → α} {key : κ}
    {entry : κ × α} :
    ∀ {entries : List (κ × α)}, entry ∈ Assoc.updateEntries change key entries →
      entry ∈ entries ∨ ∃ held, entry = (key, change held) ∧
        ∀ value, held = some value → (key, value) ∈ entries
  | [], member => by
      rw [Assoc.updateEntries, List.mem_singleton] at member
      exact .inr ⟨none, member, by simp⟩
  | (other, value) :: rest, member => by
      rw [Assoc.updateEntries] at member
      split at member
      · rename_i same
        subst same
        rcases List.mem_cons.mp member with rfl | old
        · exact .inr ⟨some value, rfl, by simp⟩
        · exact .inl (List.mem_cons_of_mem _ old)
      · rcases List.mem_cons.mp member with rfl | more
        · exact .inl List.mem_cons_self
        · rcases mem_updateEntries more with old | ⟨held, same, known⟩
          · exact .inl (List.mem_cons_of_mem _ old)
          · exact .inr ⟨held, same, fun value given => List.mem_cons_of_mem _ (known value given)⟩

/-- A listing is kept under its own path, in its first spelling. -/
theorem keyed_keep {cache : Cache} (keyed : cache.Keyed) (listing : CachedListing) :
    (cache.keep listing).Keyed := by
  intro entry member
  rcases mem_updateEntries member with old | ⟨held, rfl, known⟩
  · exact keyed entry old
  · cases held with
    | none => rfl
    | some first => exact keyed (listing.path.components, first) (known first rfl)

theorem keyed_prune {cache : Cache} (keyed : cache.Keyed) (files : FileView) :
    (cache.prune files).Keyed :=
  fun entry member => keyed entry (List.mem_filter.mp member).1

theorem keyed_ofListings (created : UInt64) (listings : List CachedListing) :
    (ofListings created listings).Keyed := by
  have kept : ∀ (listings : List CachedListing) (cache : Cache), cache.Keyed →
      (listings.foldl keep cache).Keyed := by
    intro listings
    induction listings with
    | nil => exact fun _ keyed => keyed
    | cons listing rest later => exact fun cache keyed => later _ (keyed_keep keyed listing)
  exact kept listings _ (keyed_begun 0)

/-- Whatever a document says, the cache that it gives is made of listings. -/
theorem exists_listings_of_document {document : Document} {anchors : List (Nat × Document)}
    {hops left found : Nat} {cache : Cache}
    (read : ofDocument document anchors hops = some ((found, cache), left)) :
    ∃ created listings, cache = ofListings created listings := by
  obtain ⟨slots, between, _, later⟩ := Decoder.bind_eq_some read
  split at later
  · obtain ⟨_, _, _, later⟩ := Decoder.bind_eq_some later
    obtain ⟨listings, _, _, later⟩ := Decoder.bind_eq_some later
    obtain ⟨created, _, _, later⟩ := Decoder.bind_eq_some later
    cases later
    exact ⟨created, listings, rfl⟩
  · cases later

theorem keyed_of_load {files : FileSystem} {path : Path} {cache : Cache}
    (read : Cache.load files path = .ok cache) : cache.Keyed := by
  have made : ∀ octets, ofOctets octets = .ok cache → cache.Keyed := by
    intro octets given
    unfold ofOctets at given
    split at given
    · cases given
    · rename_i found held decoded
      obtain ⟨source, _, read⟩ := Option.bind_eq_some_iff.mp decoded
      obtain ⟨⟨_, left⟩, document, same⟩ := Option.map_eq_some_iff.mp read
      cases same
      obtain ⟨created, listings, rfl⟩ := exists_listings_of_document document
      split at given
      · cases given
        exact keyed_ofListings created listings
      · cases given
  unfold Cache.load at read
  split at read
  · cases read
  · split at read
    · cases read
    · exact made _ read

/-! ## Caches in any order -/

/-- The caches that come of a new one. -/
inductive Reached : Cache → Prop where
  | begun (second : Nat) : Reached (begun second)
  | insert {cache changed : Cache} (reached : Reached cache) (files : FileSystem) (path : Path)
      (classes : List String) (inserted : cache.insert? files path classes = some changed) :
      Reached changed
  | prune {cache : Cache} (reached : Reached cache) (files : FileSystem) :
      Reached (cache.prune files)
  /-- A cache may be loaded from any file. -/
  | load {cache : Cache} (files : FileSystem) (path : Path)
      (read : Cache.load files path = .ok cache) : Reached cache
  | loadOr (files : FileSystem) (path : Path) : Reached (loadOr files path)

theorem keyed_of_reached {cache : Cache} (reached : Reached cache) : cache.Keyed := by
  induction reached with
  | begun second => exact keyed_begun second
  | insert _ files path classes inserted keyed =>
      obtain ⟨print, _, rfl⟩ := Option.map_eq_some_iff.mp inserted
      exact keyed_keep keyed _
  | prune _ files keyed => exact keyed_prune keyed files
  | load files path read => exact keyed_of_load read
  | loadOr files path =>
      unfold Cache.loadOr
      split
      · rename_i read
        exact keyed_of_load read
      · exact keyed_begun _

/-- The same cache, its entries in any order. -/
structure Rearranged (cache other : Cache) : Prop where
  created : cache.created = other.created
  entries : cache.listings.entries.Perm other.listings.entries

namespace Rearranged

variable {cache other : Cache}

theorem keyed (order : cache.Rearranged other) (keyed : other.Keyed) : cache.Keyed :=
  fun entry member => keyed entry (order.entries.mem_iff.mp member)

theorem held? (order : cache.Rearranged other) (path : Path) :
    cache.held? path = other.held? path :=
  Assoc.get?_of_perm order.entries path.components

theorem lookup? (order : cache.Rearranged other) (files : FileView) (path : Path) :
    cache.lookup? files path = other.lookup? files path := by
  rw [Cache.lookup?, Cache.lookup?, order.held?]

end Rearranged

/-- The version that the cache in a file was stored under. -/
def storedVersion? (files : FileSystem) (path : Path) : Option Nat := do
  let octets ← files.read? path
  let source ← Document.ofJsonOctets octets
  return (← source.decode ofDocument).1

/-- **A cache comes back unchanged**, in whatever order its entries are written: it is stored
under the current version, what is loaded holds the same listings for the same paths, no more
and no fewer, and so it answers every look-up alike. -/
theorem load_of_save_rearranged {cache written : Cache} (reached : Reached cache)
    (order : written.Rearranged cache) {files saved later : FileSystem} {path : Path}
    (stored : written.save files path = (saved, true))
    (kept : later.read? path = saved.read? path) :
    ∃ loaded, Cache.load later path = .ok loaded ∧ loadOr later path = loaded ∧
      storedVersion? later path = some version ∧ loaded.Rearranged cache ∧
      (∀ jar, loaded.held? jar = cache.held? jar) ∧
      ∀ others jar, loaded.lookup? others jar = cache.lookup? others jar := by
  have keyed := order.keyed (keyed_of_reached reached)
  have read := load_of_save keyed stored kept
  refine ⟨written, read, ?_, ?_, order, order.held?, order.lookup?⟩
  · rw [loadOr, read]
  · have octets := FileSystem.read?_of_store stored
    obtain ⟨source, parsed, decoded⟩ := Option.bind_eq_some_iff.mp (decode_octets written)
    simp [storedVersion?, kept, octets, parsed, decoded]

/-! ### A cache with names that need escapes, stored in the other order -/

namespace Reversed

def loud : FileContent := ⟨[7], 18446744073709551615⟩

def old : FileContent := ⟨[], -5⟩

def files : FileSystem where
  entries := [(["d"], .directory), (["d", "say \"a\".jar"], .file loud),
    (["d", "b\\\n.jar"], .file old)]
  workingDirectory := []
  clock := 0

def first : Cache :=
  (begun 18446744073709551615).keep
    ⟨⟨"d//say \"a\".jar"⟩, .ofContent loud, ["p.Ä", "p.\u2028\u0001"]⟩

def cache : Cache := first.keep ⟨⟨"d/b\\\n.jar"⟩, .ofContent old, []⟩

theorem reached : Reached cache := by
  have inserted : ∀ (cache : Cache) path classes content, files.fileAt? path = some content →
      cache.insert? files path classes = some (cache.keep ⟨path, .ofContent content, classes⟩) := by
    intro cache path classes content there
    rw [Cache.insert?, Fingerprint.at?_view, there]
    rfl
  have once : Reached first :=
    .insert (.begun _) files _ _ (inserted _ _ _ loud (by decide +kernel))
  exact .insert once files _ _ (inserted _ _ _ old (by decide +kernel))

def written : Cache where
  listings := ⟨cache.listings.entries.reverse,
    ((List.reverse_perm _).map Prod.fst).nodup_iff.mpr cache.listings.distinct⟩
  created := cache.created

def target : Path := ⟨"c/cache.json"⟩

end Reversed

theorem load_of_save_rearranged_of_reversed :
    (Reversed.written.save Reversed.files Reversed.target).2 = true ∧
      ∃ loaded,
        Cache.load (Reversed.written.save Reversed.files Reversed.target).1 Reversed.target =
            .ok loaded ∧
          loaded.Rearranged Reversed.cache := by
  have saved : (Reversed.written.save Reversed.files Reversed.target).2 = true := by
    decide +kernel
  have reversed : Reversed.written.Rearranged Reversed.cache := ⟨rfl, List.reverse_perm _⟩
  obtain ⟨loaded, read, _, _, order, _⟩ :=
    load_of_save_rearranged Reversed.reached reversed
      (Prod.ext rfl saved : Reversed.written.save Reversed.files Reversed.target = (_, true)) rfl
  exact ⟨saved, loaded, read, order⟩

end Cache

end DependencyAudit
