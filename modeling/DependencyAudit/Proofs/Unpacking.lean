/-
# DependencyAudit.Proofs.Unpacking -- a library, packed or unpacked

A jar packs a tree of files if its entries are the relative paths of these files, in any order,
each with or without a slash in front (`Packs`).  The names of its entries without these slashes
are then the names of the files that a walk through the tree comes upon, each once
(`bare_perm`), and a slash in front of an entry does not matter to the class it stands for
(`ofEntry?_bare`).  So the jar and the directory hold the same classes, as often.

What is added to an index is told by the members of a listing (`Alike.insert`), so a jar on a
class path can be replaced by its unpacked directory, or the other way round, and the index
answers as before (`alike_of_unpacked`).
-/
import DependencyAudit.Proofs.ClassPathOrder
import DependencyAudit.Proofs.Trees
import Mathlib.Data.String.Basic

namespace DependencyAudit

open Text

set_option autoImplicit false

/-! ## Entries -/

namespace ClassName

/-- An entry without the slashes in front. -/
def bare (entry : String) : String :=
  String.ofList (entry.toList.dropWhile (· = '/'))

theorem bare_slash (entry : String) : bare ("/" ++ entry) = bare entry := by
  have slash : "/".toList = ['/'] := rfl
  rw [bare, bare, String.toList_append, slash, List.singleton_append,
    List.dropWhile_cons_of_pos (by simp)]

/-- Slashes in front of an entry do not matter to the class it stands for. -/
theorem ofEntry?_bare (entry : String) : ofEntry? (bare entry) = ofEntry? entry := by
  have same := List.dropWhile_idempotent (fun c : Char => decide (c = '/')) entry.toList
  simp only [bare, ofEntryChars?, ofEntry?, String.toList_ofList, same]

/-- Of entries without the slashes in front, the same classes are read. -/
theorem filterMap_bare (entries : List String) :
    (entries.map bare).filterMap ofEntry? = entries.filterMap ofEntry? := by
  rw [List.filterMap_map]
  refine List.filterMap_congr fun entry _ => ?_
  rw [Function.comp_apply, ofEntry?_bare]

end ClassName

namespace FileSystem

open DependencyAudit.Path

/-- The entries that a file can have in a jar, by the names on the way to it. -/
inductive EntryOf (names : List String) : String → Prop where
  | plain : EntryOf names ("/".intercalate names)
  | slashed : EntryOf names ("/" ++ "/".intercalate names)

/-- A jar packs the files below a location: its entries are the relative paths of these files,
one for each. -/
structure Packs (files : FileSystem) (root : Location) (records : List Archive.Zip.Record) :
    Prop where
  packed : ∀ names, files.HasFile root names → ∃ record ∈ records, EntryOf names record.name
  filed : ∀ record ∈ records, ∃ names, files.HasFile root names ∧ EntryOf names record.name
  once : ∀ names, ∀ record ∈ records, ∀ other ∈ records,
    EntryOf names record.name → EntryOf names other.name → record.name = other.name

section Entries

variable {files : FileSystem} {root : Location} {names others : List String} {entry : String}

/-- The names on the way to what is in a tree are ordinary. -/
theorem IsTree.ordinary_of_mem (tree : files.IsTree root)
    (there : (files.entryAt? (root ++ names)).isSome = true) : ∀ name ∈ names, Ordinary name := by
  intro name member
  obtain ⟨front, more, rfl⟩ := List.append_of_mem member
  rw [List.append_cons] at there
  exact tree.ordinary front name (tree.isSome_above there)

/-- A file of a tree lies below its root, and there is a letter in front of its path. -/
theorem HasFile.exists_letter (tree : files.IsTree root) (held : files.HasFile root names) :
    ∃ c cs, ("/".intercalate names).toList = c :: cs ∧ c ≠ '/' := by
  cases names with
  | nil =>
      obtain ⟨content, there⟩ := held
      rw [List.append_nil, tree.inside] at there
      cases there
  | cons name more =>
      have ordinary := tree.ordinary_of_mem held.isSome name List.mem_cons_self
      obtain ⟨c, cs, shape⟩ : ∃ c cs, name.toList = c :: cs := by
        refine List.exists_cons_of_ne_nil fun empty => ordinary.solid (.inl ?_)
        simpa using empty
      have letter : c ≠ '/' := by
        rintro rfl
        exact ordinary.plain (shape ▸ List.mem_cons_self)
      cases more with
      | nil => exact ⟨c, cs, by simp [shape], letter⟩
      | cons next more => exact ⟨c, _, by simp [String.toList_intercalate, shape]; rfl, letter⟩

theorem EntryOf.bare_eq_bare (stands : EntryOf names entry) :
    ClassName.bare entry = ClassName.bare ("/".intercalate names) := by
  cases stands with
  | plain => rfl
  | slashed => exact ClassName.bare_slash _

/-- Without the slash in front, an entry is the path of its file. -/
theorem EntryOf.bare_eq (tree : files.IsTree root) (held : files.HasFile root names)
    (stands : EntryOf names entry) : ClassName.bare entry = "/".intercalate names := by
  obtain ⟨c, cs, shape, letter⟩ := held.exists_letter tree
  have kept : (c :: cs).dropWhile (· = '/') = c :: cs :=
    List.dropWhile_cons_of_neg (by simpa using letter)
  rw [stands.bare_eq_bare, ClassName.bare, shape, kept, ← shape, String.ofList_toList]

/-- Files of a tree have different paths. -/
theorem HasFile.eq_of_intercalate (tree : files.IsTree root) (held : files.HasFile root names)
    (held' : files.HasFile root others) (same : "/".intercalate names = "/".intercalate others) :
    names = others := by
  have parts : ∀ {ways : List String}, files.HasFile root ways →
      segments ⟨"/".intercalate ways⟩ = ways := by
    intro ways file
    refine segments_intercalate ?_ fun part member =>
      (tree.ordinary_of_mem file.isSome part member).plain
    rintro rfl
    obtain ⟨c, cs, shape, -⟩ := file.exists_letter tree
    simp at shape
  rw [← parts held, ← parts held', same]

end Entries

section Packing

variable {files : FileSystem} {root : Location} {records : List Archive.Zip.Record}
  {found : List WalkedFile}

/-- The distinct names of the entries, without slashes in front, are the paths of the files. -/
theorem bare_perm (tree : files.IsTree root) (packs : Packs files root records)
    (distinct : (found.map WalkedFile.relative).Nodup)
    (all : ∀ names, (∃ file ∈ found, file.relative = names) ↔ files.HasFile root names) :
    ((NameSet.ofList (records.map Archive.Zip.Record.name)).toList.map ClassName.bare).Perm
      (found.map WalkedFile.name) := by
  have filed : ∀ entry ∈ (NameSet.ofList (records.map Archive.Zip.Record.name)).toList,
      ∃ record ∈ records, record.name = entry ∧
        ∃ names, files.HasFile root names ∧ EntryOf names entry := by
    intro entry member
    rw [NameSet.mem_toList, NameSet.mem_ofList] at member
    obtain ⟨record, listed, rfl⟩ := List.mem_map.mp member
    exact ⟨record, listed, rfl, packs.filed record listed⟩
  refine (List.perm_ext_iff_of_nodup ?_ ?_).mpr fun path => ?_
  · refine List.Nodup.map_on ?_ ((NameSet.ofList _).ascending.imp fun less => ne_of_lt less)
    intro entry member other member' same
    obtain ⟨record, listed, rfl, names, held, stands⟩ := filed entry member
    obtain ⟨record', listed', rfl, names', held', stands'⟩ := filed other member'
    rw [stands.bare_eq tree held, stands'.bare_eq tree held'] at same
    obtain rfl := held.eq_of_intercalate tree held' same
    exact packs.once names record listed record' listed' stands stands'
  · have shape : found.map WalkedFile.name =
        (found.map WalkedFile.relative).map "/".intercalate := by
      rw [List.map_map]
      rfl
    rw [shape]
    refine List.Nodup.map_on ?_ distinct
    intro names member others member' same
    have held := (all names).mp (List.mem_map.mp member)
    exact held.eq_of_intercalate tree ((all others).mp (List.mem_map.mp member')) same
  · simp only [List.mem_map]
    constructor
    · rintro ⟨entry, member, rfl⟩
      obtain ⟨_, _, _, names, held, stands⟩ := filed entry member
      obtain ⟨file, among, rfl⟩ := (all names).mpr held
      exact ⟨file, among, (stands.bare_eq tree held).symm⟩
    · rintro ⟨file, among, rfl⟩
      have held := (all file.relative).mp ⟨file, among, rfl⟩
      obtain ⟨record, listed, stands⟩ := packs.packed _ held
      refine ⟨record.name, ?_, stands.bare_eq tree held⟩
      rw [NameSet.mem_toList, NameSet.mem_ofList]
      exact List.mem_map_of_mem listed

end Packing

end FileSystem

/-! ## Listings -/

namespace ClassListing

open FileSystem

section Listings

variable {files packed : FileSystem} {path jar : Path} {root : Location}
  {records : List Archive.Zip.Record} {found : List WalkedFile}

/-- The classes of the files that a walk came upon. -/
def ofFound (found : List WalkedFile) : List String :=
  found.filterMap fun file => ClassName.ofEntry? file.name

theorem isDirectory_of_tree (tree : files.IsTree root) (enters : files.Enters path root) :
    files.isDirectory path = true := by
  rw [isDirectory, found?, enters.leads, Option.bind_some, tree.inside]
  rfl

theorem ofDirectory_of_walk (directory : files.isDirectory path = true)
    (walked : files.walk path = found.map .ok) : ofDirectory files path = .ok (ofFound found) := by
  have answered : (files.walk path).mapM id = .ok found := by
    rw [Outcome.mapM_eq_ok, walked, List.map_id]
  rw [ofDirectory, if_pos directory, answered]
  rfl

/-- A jar holds the classes of the files that it packs, each as often. -/
theorem ofRecords_perm (tree : files.IsTree root) (packs : Packs files root records)
    (distinct : (found.map WalkedFile.relative).Nodup)
    (all : ∀ names, (∃ file ∈ found, file.relative = names) ↔ files.HasFile root names) :
    (ofRecords records).Perm (ofFound found) := by
  have shape : ofFound found = (found.map WalkedFile.name).filterMap ClassName.ofEntry? := by
    rw [List.filterMap_map, ofFound]
    exact List.filterMap_congr fun file _ => rfl
  rw [ofRecords, shape]
  refine (List.mergeSort_perm _ _).trans ?_
  rw [← ClassName.filterMap_bare]
  exact (bare_perm tree packs distinct all).filterMap _

end Listings

end ClassListing

/-! ## Indexes -/

/-- An index answers alike when an artifact of the same identity was added, with the same classes
in whatever order. -/
theorem ClassIndex.Alike.insert {index other : ClassIndex} (alike : index.Alike other)
    {artifact stand : ResolvedArtifact} (id : artifact.id = stand.id)
    (dependency : artifact.dependency = stand.dependency) {classes others : List String}
    (same : ∀ className, className ∈ classes ↔ className ∈ others) :
    (index.insert artifact classes).Alike (other.insert stand others) where
  artifactFor className := by
    rw [artifactFor_insert, artifactFor_insert, alike.artifactFor, id]
    simp only [same]
  classesOf sought := by
    by_cases own : sought = artifact.id
    · subst own
      rw [classesOf_insert_self, id, classesOf_insert_self, ← id, alike.classesOf]
      congr 1
      ext className
      simp only [NameSet.mem_insertAll, same]
    · rw [classesOf_insert_of_ne own, classesOf_insert_of_ne (id ▸ own), alike.classesOf]
  dependencyOf sought := by
    by_cases own : sought = artifact.id
    · subst own
      rw [dependencyOf_insert_self, id, dependencyOf_insert_self]
      rw [ResolvedArtifact.dependencyName, ResolvedArtifact.dependencyName, dependency, id]
    · rw [dependencyOf_insert_of_ne own, dependencyOf_insert_of_ne (id ▸ own), alike.dependencyOf]

namespace Indexing

open FileSystem

/-- Two attempts at an index fail alike, or have indexes that answer alike. -/
inductive SameOutcome : Except AuditError ClassIndex → Except AuditError ClassIndex → Prop where
  | failed (error : AuditError) : SameOutcome (.error error) (.error error)
  | indexed {index other : ClassIndex} (alike : index.Alike other) :
      SameOutcome (.ok index) (.ok other)

/-- Two artifacts add the same to any index. -/
inductive Interchange (files others : FileSystem) : ResolvedArtifact → ResolvedArtifact → Prop where
  | same {artifact : ResolvedArtifact} (listed : list files artifact = list others artifact) :
      Interchange files others artifact artifact
  | listed {artifact stand : ResolvedArtifact} (id : artifact.id = stand.id)
      (dependency : artifact.dependency = stand.dependency) {listing listing' : Listing}
      {classes classes' : List String} (first : list files artifact = .ok listing)
      (held : listing.classes? = some classes) (second : list others stand = .ok listing')
      (held' : listing'.classes? = some classes')
      (alike : ∀ className, className ∈ classes ↔ className ∈ classes') :
      Interchange files others artifact stand

section Replacing

variable {files others : FileSystem}

/-- Class paths whose artifacts can take one another's place are indexed alike. -/
theorem populateFrom_congr {artifacts stands : List ResolvedArtifact}
    (places : List.Forall₂ (Interchange files others) artifacts stands) :
    ∀ {index other : ClassIndex}, index.Alike other →
      SameOutcome (populateFrom files artifacts index) (populateFrom others stands other) := by
  induction places with
  | nil => exact fun alike => .indexed alike
  | cons place _ rest =>
      intro index other alike
      rw [populateFrom, populateFrom]
      cases place with
      | same listed =>
          rw [listed]
          cases list others _ with
          | error error => exact .failed error
          | ok listing =>
              refine rest ?_
              rw [add, add]
              cases listing.classes? with
              | none => exact alike
              | some classes => exact alike.insert rfl rfl fun _ => Iff.rfl
      | listed id dependency first held second held' same =>
          rw [first, second]
          refine rest ?_
          rw [add, add, held, held']
          exact alike.insert id dependency same

theorem alike_refl (index : ClassIndex) : index.Alike index :=
  ⟨fun _ => rfl, fun _ => rfl, fun _ => rfl⟩

end Replacing

section Unpacking

variable {packed unpacked : FileSystem} {artifact stand : ResolvedArtifact}
  {classes others : List String}

theorem list_of_jar (named : artifact.file.hasExtension "jar" = true)
    (held : packed.isFile artifact.file = true)
    (listed : ClassListing.ofJar packed artifact.file = .ok classes) :
    list packed artifact = .ok (.scanned .jar classes) := by
  obtain ⟨content, file⟩ := Option.isSome_iff_exists.mp held
  have plain : packed.isDirectory artifact.file = false := by
    simp [isDirectory, found?_of_fileAt? file]
  have extended : artifact.file.extension? ≠ none := by
    intro absent
    simp [Path.hasExtension, absent] at named
  have kind : artifact.container? packed = some .jar := by
    rw [ResolvedArtifact.container?, Container.of?, plain, if_neg Bool.false_ne_true]
    split
    · contradiction
    · rw [if_pos named]
  exact list_eq_ok_iff.mpr (.inr ⟨.jar, classes, kind, fileAt?_exists file, listed, rfl⟩)

theorem list_of_directory (directory : unpacked.isDirectory stand.file = true)
    (listed : ClassListing.ofDirectory unpacked stand.file = .ok others) :
    list unpacked stand = .ok (.scanned .directory others) := by
  have present : unpacked.exists stand.file = true := by
    rw [isDirectory, decide_eq_true_eq] at directory
    rw [FileSystem.exists, directory]
    rfl
  have kind := ResolvedArtifact.container?_of_isDirectory directory
  exact list_eq_ok_iff.mpr (.inr ⟨.directory, others, kind, present, listed, rfl⟩)

/-- **A library provides the same classes packed or unpacked.**  A walk through the tree comes upon
every file once, and the directory and the jar hold the class of each file that stands for one.  So
on a class path either can take the place of the other, and the index answers alike. -/
theorem alike_of_unpacked {jar directory : Path} {root : Location}
    {records : List Archive.Zip.Record} (tree : unpacked.IsTree root)
    (enters : unpacked.Enters directory root)
    (read : (packed.read? jar).bind Archive.Zip.directory? = some records)
    (packs : Packs unpacked root records) :
    (∃ (found : List WalkedFile) (classes : List String),
      unpacked.walk directory = found.map .ok ∧
      (found.map WalkedFile.relative).Nodup ∧
      (found.map WalkedFile.relative).Pairwise DepthFirst ∧
      (∀ names, (∃ file ∈ found, file.relative = names) ↔ unpacked.HasFile root names) ∧
      ClassListing.ofDirectory unpacked directory = .ok (ClassListing.ofFound found) ∧
      ClassListing.ofJar packed jar = .ok classes ∧ classes.Perm (ClassListing.ofFound found)) ∧
    (jar.hasExtension "jar" = true → ∀ id dependency before after,
      (∀ artifact ∈ before ++ after, list packed artifact = list unpacked artifact) →
        SameOutcome (populate packed (before ++ ⟨id, jar, dependency⟩ :: after))
          (populate unpacked (before ++ ⟨id, directory, dependency⟩ :: after))) := by
  obtain ⟨found, walked, ordered, all⟩ := walk_of_tree tree enters
  have distinct := nodup_of_depthFirst ordered
  have inside := ClassListing.isDirectory_of_tree tree enters
  have below := ClassListing.ofDirectory_of_walk inside walked
  have stored : ClassListing.ofJar packed jar = .ok (ClassListing.ofRecords records) := by
    rw [ClassListing.ofJar, read]
  have perm := ClassListing.ofRecords_perm tree packs distinct all
  refine ⟨⟨found, _, walked, distinct, ordered, all, below, stored, perm⟩, ?_⟩
  intro named id dependency before after others
  have held : packed.isFile jar = true := by
    obtain ⟨octets, content, _⟩ := Option.bind_eq_some_iff.mp read
    obtain ⟨file, there, _⟩ := Option.map_eq_some_iff.mp content
    rw [isFile, there]
    rfl
  refine populateFrom_congr ?_ (alike_refl ClassIndex.empty)
  have same : ∀ {artifacts : List ResolvedArtifact}, artifacts ⊆ before ++ after →
      List.Forall₂ (Interchange packed unpacked) artifacts artifacts := by
    intro artifacts within
    exact List.forall₂_same.mpr fun artifact member => .same (others artifact (within member))
  refine List.rel_append (same (List.subset_append_left _ _)) ?_
  refine .cons ?_ (same (List.subset_append_right _ _))
  exact .listed rfl rfl (list_of_jar named held stored) rfl (list_of_directory inside below) rfl
    fun className => perm.mem_iff

end Unpacking

/-! ### A library with versioned classes -/

namespace Delivered

/-- A directory, and a jar of its files in another order, one of them with a slash in front. -/
def files : FileSystem where
  entries := [
    (["lib"], .directory), (["lib", "p"], .directory), (["lib", "META-INF"], .directory),
    (["lib", "META-INF", "versions"], .directory),
    (["lib", "META-INF", "versions", "9"], .directory),
    (["lib", "A.class"], .file ⟨[], 0⟩), (["lib", "p", "B.class"], .file ⟨[], 0⟩),
    (["lib", "p", "package-info.class"], .file ⟨[], 0⟩),
    (["lib", "META-INF", "versions", "9", "A.class"], .file ⟨[], 0⟩),
    (["lib.jar"], .file ⟨Archive.Zip.write [⟨"/p/B.class", []⟩, ⟨"A.class", []⟩,
      ⟨"p/package-info.class", []⟩, ⟨"META-INF/versions/9/A.class", []⟩], 0⟩)]
  workingDirectory := []
  clock := 0

def records : List Archive.Zip.Record :=
  ((files.read? ⟨"lib.jar"⟩).bind Archive.Zip.directory?).getD []

theorem tree : files.IsTree ["lib"] := by
  refine .ofEntries (by decide) ?_ (by decide)
  simp [files]

/-- What is below the directory, by the names on the way. -/
theorem mem_entries {names : List String} {entry : FileEntry}
    (there : files.entryAt? (["lib"] ++ names) = some entry) :
    ("lib" :: names, entry) ∈ files.entries :=
  mem_of_entryAt? (by simp) there

theorem enters : files.Enters ⟨"lib"⟩ ["lib"] where
  leads := by decide
  admissible names inside := by
    have short : ∀ listed ∈ files.entries,
        (Path.below ⟨"lib"⟩ listed.1.tail).isAdmissible = true := by decide
    exact short _ (mem_entries inside)

theorem read : (files.read? ⟨"lib.jar"⟩).bind Archive.Zip.directory? = some records := by
  decide +kernel

/-- The files below the directory. -/
def ways : List (List String) :=
  [["A.class"], ["p", "B.class"], ["p", "package-info.class"],
    ["META-INF", "versions", "9", "A.class"]]

theorem hasFile_of_mem_ways {names : List String} (member : names ∈ ways) :
    files.HasFile ["lib"] names := by
  have there : ∀ names ∈ ways, files.entryAt? (["lib"] ++ names) = some (.file ⟨[], 0⟩) := by
    decide
  exact ⟨_, there names member⟩

theorem packs : Packs files ["lib"] records where
  packed names held := by
    obtain ⟨content, there⟩ := held
    have all : ∀ listed ∈ files.entries, listed.2 ≠ .directory → listed.1.head? = some "lib" →
        ∃ record ∈ records, record.name = "/".intercalate listed.1.tail ∨
          record.name = "/" ++ "/".intercalate listed.1.tail := by decide +kernel
    obtain ⟨record, listed, plain | slashed⟩ := all _ (mem_entries there) (by simp) rfl
    · exact ⟨record, listed, plain ▸ .plain⟩
    · exact ⟨record, listed, slashed ▸ .slashed⟩
  filed record listed := by
    have all : ∀ record ∈ records, ∃ names ∈ ways, record.name = "/".intercalate names ∨
        record.name = "/" ++ "/".intercalate names := by decide +kernel
    obtain ⟨names, member, plain | slashed⟩ := all record listed
    · exact ⟨names, hasFile_of_mem_ways member, plain ▸ .plain⟩
    · exact ⟨names, hasFile_of_mem_ways member, slashed ▸ .slashed⟩
  once names record listed other listed' stands stands' := by
    have apart : ∀ record ∈ records, ∀ other ∈ records,
        ClassName.bare record.name = ClassName.bare other.name → record.name = other.name := by
      decide +kernel
    exact apart record listed other listed'
      (stands.bare_eq_bare.trans stands'.bare_eq_bare.symm)

end Delivered

/-- The class of a versioned entry counts twice, packed or unpacked. -/
theorem alike_of_unpacked_of_delivered :
    (∃ classes, ClassListing.ofJar Delivered.files ⟨"lib.jar"⟩ = .ok classes ∧
      classes.Perm ["A", "A", "p.B"]) ∧
    SameOutcome (populate Delivered.files [⟨.project "l", ⟨"lib.jar"⟩, none⟩])
      (populate Delivered.files [⟨.project "l", ⟨"lib"⟩, none⟩]) := by
  obtain ⟨⟨found, classes, _, _, _, _, below, stored, perm⟩, replaced⟩ :=
    alike_of_unpacked Delivered.tree Delivered.enters Delivered.read Delivered.packs
  have listed : (ClassListing.ofDirectory Delivered.files ⟨"lib"⟩).toOption =
      some ["A", "A", "p.B"] := by decide
  rw [below] at listed
  refine ⟨⟨classes, stored, ?_⟩, ?_⟩
  · rwa [← Option.some.inj listed]
  · exact replaced (by decide) _ none [] [] fun _ _ => rfl

end Indexing

end DependencyAudit
