/-
# DependencyAudit.Proofs.Shards -- an index as the sum of its shards

A shard is an artifact with the classes found in it.  An index that shards are merged into
one by one is three maps filled with overwrites, and each can be told from the list of
shards alone: a class belongs to the last shard that holds it (`artifactFor_merge`), an
identity stands for the dependency of its last shard (`dependencyOf_merge`), and holds the
classes of all of them.

`populate` merges one shard for each container of the class path, in order, and skips all
else (`populate_eq_ok_iff`).
-/
import DependencyAudit.Indexing
import DependencyAudit.Proofs.LastMember
import DependencyAudit.Proofs.Outcome

namespace DependencyAudit

set_option autoImplicit false

/-- An artifact with the classes found in it. -/
structure Shard where
  artifact : ResolvedArtifact
  classes : List String

namespace ClassIndex

/-! ## Merging -/

/-- The index after some shards have been merged into it, in order. -/
def merge (index : ClassIndex) (shards : List Shard) : ClassIndex :=
  shards.foldl (fun sofar shard => sofar.insert shard.artifact shard.classes) index

/-- A class belongs to the last shard that holds it. -/
theorem artifactFor_merge {shards : List Shard} {className : String} {id : ArtifactId} :
    (empty.merge shards).artifactFor className = some id ↔
      ∃ shard, LastMember (fun other => className ∈ other.classes) shards shard ∧
        shard.artifact.id = id := by
  have nobody : empty.artifactFor className ≠ some id := by
    simp [empty, artifactFor, Assoc.empty, Assoc.get?]
  refine (foldl_overwrite (artifactFor · className)
    (fun shard : Shard => className ∈ shard.classes) (fun shard => shard.artifact.id)
    (fun index shard held => ?_) (fun index shard missing => ?_)).trans ?_
  · rw [artifactFor_insert, if_pos held]
  · rw [artifactFor_insert, if_neg missing]
  · simp [nobody]

/-- An identity stands for the dependency of its last shard. -/
theorem dependencyOf_merge {shards : List Shard} {id : ArtifactId} {dependency : String} :
    (empty.merge shards).dependencyOf id = some dependency ↔
      ∃ shard, LastMember (fun other => other.artifact.id = id) shards shard ∧
        shard.artifact.dependencyName = dependency := by
  have nothing : empty.dependencyOf id ≠ some dependency := by
    simp [empty, dependencyOf, Assoc.empty, Assoc.get?]
  refine (foldl_overwrite (dependencyOf · id)
    (fun shard : Shard => shard.artifact.id = id) (fun shard => shard.artifact.dependencyName)
    (fun index shard same => ?_) (fun index shard other => ?_)).trans ?_
  · subst same
    exact dependencyOf_insert_self
  · exact dependencyOf_insert_of_ne (Ne.symm other)
  · simp [nothing]

end ClassIndex

namespace ResolvedArtifact

/-- The classes found in an artifact, if it is a container that can be listed. -/
def listing? (files : FileSystem) (artifact : ResolvedArtifact) : Option (List String) :=
  (artifact.container? files).bind fun container =>
    (ClassListing.ofContainer files container artifact.file).toOption

/-- The shard that an artifact adds to an index. -/
def shard? (files : FileSystem) (artifact : ResolvedArtifact) : Option Shard :=
  (artifact.listing? files).map (Shard.mk artifact)

end ResolvedArtifact

namespace Indexing

/-- An artifact is listed if it is no container, or if it exists and its classes can be
had. -/
theorem list_eq_ok_iff {files : FileSystem} {artifact : ResolvedArtifact} {listing : Listing} :
    list files artifact = .ok listing ↔
      artifact.container? files = none ∧ listing = .skipped ∨
        ∃ container classes, artifact.container? files = some container ∧
          files.exists artifact.file = true ∧
          ClassListing.ofContainer files container artifact.file = .ok classes ∧
          listing = .scanned container classes := by
  unfold list
  cases kind : artifact.container? files with
  | none =>
      simp only [Except.ok.injEq, reduceCtorEq, false_and, exists_false, or_false, true_and]
      exact eq_comm
  | some container =>
      simp only [scan, reduceCtorEq, false_and, false_or, Option.some.injEq, exists_and_left,
        exists_eq_left']
      cases present : files.exists artifact.file with
      | false => simp
      | true =>
          simp only [Bool.not_true, Bool.false_eq_true, if_false, true_and,
            Outcome.mapError_eq_ok, Outcome.map_eq_ok]
          exact exists_congr fun classes => and_congr_right fun _ => eq_comm

/-- What is indexed of an artifact is what is found in it. -/
theorem classes?_of_list {files : FileSystem} {artifact : ResolvedArtifact} {listing : Listing}
    (listed : list files artifact = .ok listing) : listing.classes? = artifact.listing? files := by
  rcases list_eq_ok_iff.mp listed with ⟨kind, rfl⟩ | ⟨container, classes, kind, _, found, rfl⟩
  · simp [ResolvedArtifact.listing?, kind, Listing.classes?]
  · simp [ResolvedArtifact.listing?, kind, Listing.classes?, found, Except.toOption]

/-- A listed artifact is a container exactly if it has classes to be indexed. -/
theorem isSome_container?_of_list {files : FileSystem} {artifact : ResolvedArtifact}
    {listing : Listing} (listed : list files artifact = .ok listing) :
    (artifact.container? files).isSome = (artifact.listing? files).isSome := by
  rw [← classes?_of_list listed]
  rcases list_eq_ok_iff.mp listed with ⟨kind, rfl⟩ | ⟨container, classes, kind, _, _, rfl⟩ <;>
    rw [kind] <;> rfl

theorem add_eq_merge {files : FileSystem} {artifact : ResolvedArtifact} {listing : Listing}
    (listed : list files artifact = .ok listing) (index : ClassIndex) :
    add index artifact listing = index.merge (artifact.shard? files).toList := by
  rw [add, classes?_of_list listed, ResolvedArtifact.shard?]
  cases artifact.listing? files <;> rfl

theorem populateFrom_eq_ok_iff {files : FileSystem} {artifacts : List ResolvedArtifact}
    {index result : ClassIndex} :
    populateFrom files artifacts index = .ok result ↔
      (∀ artifact ∈ artifacts, ∃ listing, list files artifact = .ok listing) ∧
        result = index.merge (artifacts.filterMap (ResolvedArtifact.shard? files)) := by
  induction artifacts generalizing index with
  | nil => simp [populateFrom, ClassIndex.merge, eq_comm]
  | cons artifact rest merged =>
      rw [populateFrom]
      cases listed : list files artifact with
      | error error => simp [listed]
      | ok listing =>
          have shape : (artifact :: rest).filterMap (ResolvedArtifact.shard? files) =
              (artifact.shard? files).toList ++ rest.filterMap (ResolvedArtifact.shard? files) := by
            cases shown : artifact.shard? files <;> simp [shown]
          simp only [merged, add_eq_merge listed, shape, ClassIndex.merge, List.foldl_append,
            List.forall_mem_cons, listed, Except.ok.injEq, exists_eq', true_and]

/-- A class path is indexed exactly if each of its artifacts is listed or skipped, and then
its index has a shard for each container. -/
theorem populate_eq_ok_iff {files : FileSystem} {artifacts : List ResolvedArtifact}
    {index : ClassIndex} :
    populate files artifacts = .ok index ↔
      (∀ artifact ∈ artifacts, ∃ listing, list files artifact = .ok listing) ∧
        index = ClassIndex.empty.merge (artifacts.filterMap (ResolvedArtifact.shard? files)) :=
  populateFrom_eq_ok_iff

/-- The last shard of a class path with a property comes from the last artifact whose shard
has it. -/
theorem lastMember_shards {files : FileSystem} {artifacts : List ResolvedArtifact}
    {property : Shard → Prop} {shard : Shard} :
    LastMember property (artifacts.filterMap (ResolvedArtifact.shard? files)) shard ↔
      LastMember (fun artifact => ∃ classes, artifact.listing? files = some classes ∧
        property ⟨artifact, classes⟩) artifacts shard.artifact ∧
      shard.artifact.listing? files = some shard.classes := by
  have sharded : ∀ artifact : ResolvedArtifact,
      (∃ found, artifact.shard? files = some found ∧ property found) ↔
        ∃ classes, artifact.listing? files = some classes ∧ property ⟨artifact, classes⟩ := by
    intro artifact
    cases listed : artifact.listing? files <;> simp [ResolvedArtifact.shard?, listed]
  rw [lastMember_filterMap]
  constructor
  · rintro ⟨artifact, last, shown⟩
    obtain ⟨classes, listed, rfl⟩ := Option.map_eq_some_iff.mp shown
    exact ⟨(LastMember.congr fun other _ => sharded other).mp last, listed⟩
  · rintro ⟨last, listed⟩
    exact ⟨shard.artifact, (LastMember.congr fun other _ => sharded other).mpr last,
      Option.map_eq_some_iff.mpr ⟨shard.classes, listed, rfl⟩⟩

/-- In the index of a class path a class belongs to the last artifact that holds it. -/
theorem artifactFor_populate {files : FileSystem} {artifacts : List ResolvedArtifact}
    {index : ClassIndex} (populated : populate files artifacts = .ok index) {className : String}
    {id : ArtifactId} :
    index.artifactFor className = some id ↔
      ∃ owner, LastMember (fun artifact => ∃ classes, artifact.listing? files = some classes ∧
        className ∈ classes) artifacts owner ∧ owner.id = id := by
  rw [(populate_eq_ok_iff.mp populated).2, ClassIndex.artifactFor_merge]
  constructor
  · rintro ⟨shard, last, same⟩
    exact ⟨shard.artifact, (lastMember_shards.mp last).1, same⟩
  · rintro ⟨owner, last, same⟩
    obtain ⟨classes, listed, _⟩ := last.holds
    exact ⟨⟨owner, classes⟩, lastMember_shards.mpr ⟨last, listed⟩, same⟩

/-- In the index of a class path an identity stands for the dependency of the last container
of this identity. -/
theorem dependencyOf_populate {files : FileSystem} {artifacts : List ResolvedArtifact}
    {index : ClassIndex} (populated : populate files artifacts = .ok index) {id : ArtifactId}
    {dependency : String} :
    index.dependencyOf id = some dependency ↔
      ∃ stand, LastMember (fun artifact => (artifact.container? files).isSome ∧
        artifact.id = id) artifacts stand ∧ stand.dependencyName = dependency := by
  have analysed : ∀ artifact ∈ artifacts, (artifact.container? files).isSome ∧ artifact.id = id ↔
      ∃ classes, artifact.listing? files = some classes ∧ artifact.id = id := by
    intro artifact member
    obtain ⟨listing, listed⟩ := (populate_eq_ok_iff.mp populated).1 artifact member
    simp [isSome_container?_of_list listed, Option.isSome_iff_exists]
  rw [(populate_eq_ok_iff.mp populated).2, ClassIndex.dependencyOf_merge]
  constructor
  · rintro ⟨shard, last, same⟩
    exact ⟨shard.artifact, (LastMember.congr analysed).mpr (lastMember_shards.mp last).1, same⟩
  · rintro ⟨stand, last, same⟩
    obtain ⟨classes, listed, _⟩ := (analysed stand last.mem).mp last.holds
    exact ⟨⟨stand, classes⟩,
      lastMember_shards.mpr ⟨(LastMember.congr analysed).mp last, listed⟩, same⟩

end Indexing

end DependencyAudit
