/-
# DependencyAudit.Proofs.Entries -- classes under their own entries

A class is stored under its internal name and the ending of class files.  Not every name can
be read off such an entry: module and package descriptors and what `META-INF` holds are no
classes, a slash in front goes astray, and a backslash is taken for a slash.  For all other
names (`Storable`) the entry gives back the very name that references to the class are known
by (`ofEntry?_class`), and so an artifact of an indexed class path that stores a class under
its entry holds the class (`Stores.holds`).
-/
import DependencyAudit.Proofs.Provenance

namespace DependencyAudit

open Text

set_option autoImplicit false

/-! ## Names and entries -/

namespace ClassName

/-- A class of this internal name can be read off its entry. -/
structure Storable (internal : String) : Prop where
  nonempty : internal.toList ≠ []
  relative : internal.toList.head? ≠ some '/'
  slashed : '\\' ∉ internal.toList
  not_metaInf : ¬ "META-INF/".toList <+: internal.toList
  not_module : internal.toList ≠ "module-info".toList
  not_moduleIn : ¬ "/module-info".toList <:+ internal.toList
  not_package : ¬ "package-info".toList <:+ internal.toList

theorem after?_eq_none {start cs : List Char} (other : ¬ start <+: cs) :
    after? start cs = none := by
  cases found : after? start cs with
  | none => rfl
  | some rest => exact absurd ⟨rest, (eq_append_of_after? found).symm⟩ other

theorem before?_append (stem ending : List Char) : before? ending (stem ++ ending) = some stem := by
  rw [before?, List.reverse_append, after?_append, Option.map_some, List.reverse_reverse]

theorem before?_eq_none {ending cs : List Char} (other : ¬ ending <:+ cs) :
    before? ending cs = none := by
  rw [before?, after?_eq_none (fun start => other (List.reverse_prefix.mp start)), Option.map_none]

theorem Storable.not_descriptor {internal : String} (storable : Storable internal) :
    isDescriptorStem internal.toList = false := by
  have nonempty : internal.toList.isEmpty = false := by simpa using storable.nonempty
  have not_module : (internal.toList == "module-info".toList) = false :=
    beq_eq_false_iff_ne.mpr storable.not_module
  rw [isDescriptorStem, nonempty, not_module, before?_eq_none storable.not_moduleIn,
    before?_eq_none storable.not_package]
  rfl

/-- The entry of a class gives back its name. -/
theorem ofEntry?_class {internal : String} (storable : Storable internal) :
    ofEntry? (internal ++ ".class") = some (ofInternal internal) := by
  obtain ⟨c, rest, shape⟩ := List.exists_cons_of_ne_nil storable.nonempty
  have first : c ≠ '/' := by
    rintro rfl
    exact storable.relative (by rw [shape, List.head?_cons])
  have entry : (internal ++ ".class").toList = internal.toList ++ ".class".toList :=
    String.toList_append
  have kept : (internal.toList ++ ".class".toList).dropWhile (· = '/') =
      internal.toList ++ ".class".toList := by
    simp [shape, first]
  have slashed : (internal.toList ++ ".class".toList).map (fun c => if c = '\\' then '/' else c) =
      internal.toList ++ ".class".toList := by
    have none : '\\' ∉ internal.toList ++ ".class".toList := by
      rw [List.mem_append, not_or]
      exact ⟨storable.slashed, by decide⟩
    refine (List.map_congr_left fun c member => ?_).trans (List.map_id _)
    have other : c ≠ '\\' := fun same => none (same ▸ member)
    rw [if_neg other, id_eq]
  have base : baseStem? internal.toList = some internal.toList := by
    rw [baseStem?, after?_eq_none storable.not_metaInf]
  unfold ofEntry? ofEntryChars?
  simp only [entry, kept, slashed, before?_append, base, bind,
    Option.bind_some, storable.not_descriptor, Bool.false_eq_true, if_false, Option.map_some,
    ofInternal]

end ClassName

/-! ## Listings -/

namespace ClassListing

/-- A jar holds the classes of its entries. -/
theorem mem_ofRecords {records : List Archive.Zip.Record} {className : String} :
    className ∈ ofRecords records ↔
      ∃ record ∈ records, ClassName.ofEntry? record.name = some className := by
  simp only [ofRecords, List.mem_mergeSort, List.mem_filterMap, NameSet.mem_toList,
    NameSet.mem_ofList, List.mem_map]
  constructor
  · rintro ⟨_, ⟨record, listed, rfl⟩, stored⟩
    exact ⟨record, listed, stored⟩
  · rintro ⟨record, listed, stored⟩
    exact ⟨_, ⟨record, listed, rfl⟩, stored⟩

/-- A directory that can be listed holds the classes of the files below it. -/
theorem mem_ofDirectory {files : FileSystem} {path : Path} {classes : List String}
    (listed : ofDirectory files path = .ok classes) {className : String} :
    className ∈ classes ↔
      ∃ file, .ok file ∈ files.walk path ∧ ClassName.ofEntry? file.name = some className := by
  unfold ofDirectory at listed
  split at listed
  · split at listed
    · rename_i found walked
      cases listed
      simp only [List.mem_filterMap, Outcome.mem_mapM walked, id_eq, exists_eq_right]
    · cases listed
  · cases listed

end ClassListing

/-! ## Stored classes -/

namespace Classification

/-- An artifact stores a class under its own entry. -/
inductive Stores (files : FileSystem) (internal : String) (artifact : ResolvedArtifact) : Prop where
  | entry (jar : artifact.container? files = some .jar) (octets : List UInt8)
      (read : files.read? artifact.file = some octets) (records : List Archive.Zip.Record)
      (directory : Archive.Zip.directory? octets = some records) (record : Archive.Zip.Record)
      (listed : record ∈ records) (named : record.name = internal ++ ".class")
  | file (directory : artifact.container? files = some .directory)
      (found : FileSystem.WalkedFile) (walked : .ok found ∈ files.walk artifact.file)
      (named : found.name = internal ++ ".class")

/-- Of an indexed class path, an artifact that stores a class holds it. -/
theorem Stores.holds {files : FileSystem} {artifacts : List ResolvedArtifact} {index : ClassIndex}
    (populated : Indexing.populate files artifacts = .ok index) {artifact : ResolvedArtifact}
    (member : artifact ∈ artifacts) {internal : String} (storable : ClassName.Storable internal)
    (stores : Stores files internal artifact) :
    Holds files (ClassName.ofInternal internal) artifact := by
  obtain ⟨listing, listed⟩ := (Indexing.populate_eq_ok_iff.mp populated).1 artifact member
  rcases Indexing.list_eq_ok_iff.mp listed with ⟨none, _⟩ | ⟨container, classes, kind, _, found, _⟩
  · cases stores with
    | entry jar => cases none.symm.trans jar
    | file directory => cases none.symm.trans directory
  · refine ⟨classes, by simp [ResolvedArtifact.listing?, kind, found, Except.toOption], ?_⟩
    cases stores with
    | entry jar octets read records directory record among named =>
        cases kind.symm.trans jar
        simp only [ClassListing.ofContainer, ClassListing.ofJar, read, Option.bind_some,
          directory] at found
        cases found
        refine ClassListing.mem_ofRecords.mpr ⟨record, among, ?_⟩
        rw [named, ClassName.ofEntry?_class storable]
    | file directory file walked named =>
        cases kind.symm.trans directory
        refine (ClassListing.mem_ofDirectory found).mpr ⟨file, walked, ?_⟩
        rw [named, ClassName.ofEntry?_class storable]

end Classification

end DependencyAudit
