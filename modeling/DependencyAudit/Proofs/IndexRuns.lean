/-
# DependencyAudit.Proofs.IndexRuns -- what an index has been told

An index is filled and cleared, over and over.  Of all that was done to it only the shards
inserted after the last clearing count (`sinceClear`), and the index is their sum
(`run_eq_merge`).  So each of its maps can be told from the list of these shards: `Sums` says
how (`sums_run`), with the last shard deciding where one overwrites another, and all of them
counting where classes are gathered.

The maps are filled side by side, and agree (`Sums.coherent`): what owns a class holds it,
though others may hold it as well, and stands for a dependency.  So an audit never has to make
do with the name of an artifact where a dependency is wanted.
-/
import Mathlib.Data.Finset.Card
import Mathlib.Data.List.DropRight
import DependencyAudit.Classification
import DependencyAudit.Proofs.Shards

namespace DependencyAudit

set_option autoImplicit false

/-! ## Steps -/

/-- What is done to an index. -/
inductive IndexStep where
  | insert (artifact : ResolvedArtifact) (classes : List String)
  | clear

namespace IndexStep

/-- The shard that a step inserts. -/
def shard? : IndexStep → Option Shard
  | .insert artifact classes => some ⟨artifact, classes⟩
  | .clear => none

end IndexStep

namespace ClassIndex

/-- An index after one more step. -/
def apply (index : ClassIndex) : IndexStep → ClassIndex
  | .insert artifact classes => index.insert artifact classes
  | .clear => index.clear

/-- A new index after some steps. -/
def run (steps : List IndexStep) : ClassIndex :=
  steps.foldl apply empty

/-- The shards that were inserted after the last clearing. -/
def sinceClear (steps : List IndexStep) : List Shard :=
  (steps.rtakeWhile fun step => step.shard?.isSome).filterMap IndexStep.shard?

theorem sinceClear_concat_clear (steps : List IndexStep) :
    sinceClear (steps ++ [.clear]) = [] := by
  rw [sinceClear, List.rtakeWhile_concat_neg _ _ _ (by simp [IndexStep.shard?]), List.filterMap_nil]

theorem sinceClear_concat_insert (steps : List IndexStep) (artifact : ResolvedArtifact)
    (classes : List String) :
    sinceClear (steps ++ [.insert artifact classes]) =
      sinceClear steps ++ [⟨artifact, classes⟩] := by
  rw [sinceClear, List.rtakeWhile_concat_pos _ _ _ (by simp [IndexStep.shard?]),
    List.filterMap_append]
  rfl

theorem merge_concat (index : ClassIndex) (shards : List Shard) (shard : Shard) :
    index.merge (shards ++ [shard]) =
      (index.merge shards).insert shard.artifact shard.classes := by
  rw [merge, merge, List.foldl_append]
  rfl

/-- An index is the sum of the shards inserted after the last clearing. -/
theorem run_eq_merge (steps : List IndexStep) : run steps = empty.merge (sinceClear steps) := by
  induction steps using List.reverseRecOn with
  | nil => rfl
  | append_singleton steps step same =>
      rw [run, List.foldl_append, ← run, same]
      cases step with
      | clear =>
          rw [sinceClear_concat_clear]
          rfl
      | insert artifact classes =>
          rw [sinceClear_concat_insert, merge_concat]
          rfl

/-! ## Sums -/

/-- An index says of everything what a list of shards says. -/
structure Sums (index : ClassIndex) (shards : List Shard) : Prop where
  /-- A class belongs to the last shard that holds it. -/
  artifactFor : ∀ className id, index.artifactFor className = some id ↔
    ∃ shard, LastMember (fun other => className ∈ other.classes) shards shard ∧
      shard.artifact.id = id
  artifactFor_none : ∀ className, index.artifactFor className = none ↔
    ∀ shard ∈ shards, className ∉ shard.classes
  /-- An identity holds the classes of all its shards. -/
  classesOf : ∀ id classes, index.classesOf id = some classes ↔
    (∃ shard ∈ shards, shard.artifact.id = id) ∧
      ∀ className, className ∈ classes ↔
        ∃ shard ∈ shards, shard.artifact.id = id ∧ className ∈ shard.classes
  classesOf_none : ∀ id, index.classesOf id = none ↔ ∀ shard ∈ shards, shard.artifact.id ≠ id
  /-- An identity stands for the dependency of its last shard. -/
  dependencyOf : ∀ id dependency, index.dependencyOf id = some dependency ↔
    ∃ shard, LastMember (fun other => other.artifact.id = id) shards shard ∧
      shard.artifact.dependencyName = dependency
  dependencyOf_none : ∀ id, index.dependencyOf id = none ↔
    ∀ shard ∈ shards, shard.artifact.id ≠ id
  classCount : index.classCount = (shards.flatMap Shard.classes).toFinset.card
  artifactCount : index.artifactCount = (shards.map fun shard => shard.artifact.id).toFinset.card
  isEmpty : index.isEmpty = true ↔ shards = []

/-- Where only the last member writes, nothing is there if no member does. -/
theorem eq_none_of_lastMember {α β : Type} {seen : Option β} {property : α → Prop}
    {written : α → β} {list : List α}
    (last : ∀ value, seen = some value ↔
      ∃ member, LastMember property list member ∧ written member = value) :
    seen = none ↔ ∀ member ∈ list, ¬ property member := by
  rw [Option.eq_none_iff_forall_ne_some]
  constructor
  · intro unseen member listed held
    obtain ⟨final, among⟩ := exists_lastMember_iff.mpr ⟨member, listed, held⟩
    exact unseen _ ((last _).mpr ⟨final, among, rfl⟩)
  · intro nobody value found
    obtain ⟨member, among, _⟩ := (last value).mp found
    exact nobody member among.mem among.holds

/-- The classes of all shards of an identity. -/
def gathered (id : ArtifactId) (shards : List Shard) : List String :=
  (shards.filter fun shard => shard.artifact.id = id).flatMap Shard.classes

theorem mem_gathered {id : ArtifactId} {shards : List Shard} {className : String} :
    className ∈ gathered id shards ↔
      ∃ shard ∈ shards, shard.artifact.id = id ∧ className ∈ shard.classes := by
  simp [gathered, and_assoc]

/-- An identity holds what its shards have gathered, if it has any. -/
theorem classesOf_merge {id : ArtifactId} {shards : List Shard} :
    (empty.merge shards).classesOf id =
      if ∃ shard ∈ shards, shard.artifact.id = id then some (.ofList (gathered id shards))
      else none := by
  induction shards using List.reverseRecOn with
  | nil => simp [merge, empty, classesOf, Assoc.empty, Assoc.get?]
  | append_singleton shards shard held =>
      rw [merge_concat]
      by_cases same : shard.artifact.id = id
      · subst same
        have more : gathered shard.artifact.id (shards ++ [shard]) =
            gathered shard.artifact.id shards ++ shard.classes := by
          simp [gathered]
        have among : ∃ other ∈ shards ++ [shard], other.artifact.id = shard.artifact.id :=
          ⟨shard, by simp, rfl⟩
        rw [classesOf_insert_self, if_pos among, more, held]
        split
        · rw [Option.getD_some, NameSet.ofList, NameSet.ofList, NameSet.insertAll,
            NameSet.insertAll, NameSet.insertAll, List.foldl_append]
        · rename_i first
          have nothing : gathered shard.artifact.id shards = [] := by
            refine List.eq_nil_iff_forall_not_mem.mpr fun className member => ?_
            obtain ⟨other, listed, same, _⟩ := mem_gathered.mp member
            exact first ⟨other, listed, same⟩
          rw [nothing]
          rfl
      · have others : gathered id (shards ++ [shard]) = gathered id shards := by
          simp [gathered, same]
        rw [classesOf_insert_of_ne (Ne.symm same), held, others]
        simp [same]

theorem card_keys {κ α : Type} [DecidableEq κ] {map : Assoc κ α} {keys : List κ}
    (same : ∀ key, (map.get? key).isSome ↔ key ∈ keys) : map.size = keys.toFinset.card := by
  have keyed : map.keys.toFinset = keys.toFinset := by
    ext key
    rw [List.mem_toFinset, List.mem_toFinset, ← Assoc.isSome_get?_iff, same]
  have distinct : map.keys.Nodup := map.distinct
  rw [← keyed, List.toFinset_card_of_nodup distinct, Assoc.keys, List.length_map, Assoc.size]

theorem sums_merge (shards : List Shard) : (empty.merge shards).Sums shards := by
  have owned := fun className => eq_none_of_lastMember fun id =>
    @artifactFor_merge shards className id
  have stands := fun id => eq_none_of_lastMember fun dependency =>
    @dependencyOf_merge shards id dependency
  have absent : ∀ id, (empty.merge shards).classesOf id = none ↔
      ∀ shard ∈ shards, shard.artifact.id ≠ id := by
    intro id
    rw [classesOf_merge]
    split <;> simp_all
  refine ⟨fun _ _ => artifactFor_merge, owned, fun id classes => ?_, absent,
    fun _ _ => dependencyOf_merge, stands, ?_, ?_, ?_⟩
  · rw [classesOf_merge]
    split
    · rename_i held
      simp only [Option.some.injEq, held, true_and]
      rw [NameSet.ext_iff]
      simp only [NameSet.mem_ofList, mem_gathered]
      exact forall_congr' fun _ => iff_comm
    · rename_i missing
      simp [missing]
  · refine card_keys fun className => ?_
    change ((empty.merge shards).artifactFor className).isSome ↔ _
    rw [Option.isSome_iff_ne_none, Ne, owned]
    simp
  · refine card_keys fun id => ?_
    change ((empty.merge shards).classesOf id).isSome ↔ _
    rw [Option.isSome_iff_ne_none, Ne, absent]
    simp
  · constructor
    · intro none_held
      have entries : (empty.merge shards).listings.entries = [] := List.isEmpty_iff.mp none_held
      refine List.eq_nil_iff_forall_not_mem.mpr fun shard member => ?_
      refine (absent shard.artifact.id).mp ?_ shard member rfl
      rw [classesOf, Assoc.get?, entries]
      rfl
    · rintro rfl
      rfl

/-! ## Agreement -/

/-- The maps of an index agree: what owns a class holds it, and stands for a dependency. -/
structure Coherent (index : ClassIndex) : Prop where
  holds : ∀ className id, index.artifactFor className = some id →
    ∃ classes, index.classesOf id = some classes ∧ className ∈ classes
  standsFor : ∀ className id, index.artifactFor className = some id →
    ∃ dependency, index.dependencyOf id = some dependency
  /-- An audit takes the dependency of a class from the index, and never falls back. -/
  dependencyFor : ∀ manifest className,
    Classification.dependencyFor index manifest className =
      (index.artifactFor className).bind fun id =>
        if manifest.isSelf id then none else index.dependencyOf id

theorem Sums.coherent {index : ClassIndex} {shards : List Shard} (sums : index.Sums shards) :
    index.Coherent := by
  have holds : ∀ className id, index.artifactFor className = some id →
      ∃ classes, index.classesOf id = some classes ∧ className ∈ classes := by
    intro className id owned
    obtain ⟨shard, last, same⟩ := (sums.artifactFor className id).mp owned
    have listed : index.classesOf id ≠ none := by
      rw [Ne, sums.classesOf_none]
      exact fun nobody => nobody shard last.mem same
    obtain ⟨classes, found⟩ := Option.ne_none_iff_exists'.mp listed
    refine ⟨classes, found, ?_⟩
    exact (((sums.classesOf id classes).mp found).2 className).mpr
      ⟨shard, last.mem, same, last.holds⟩
  have standsFor : ∀ className id, index.artifactFor className = some id →
      ∃ dependency, index.dependencyOf id = some dependency := by
    intro className id owned
    obtain ⟨shard, last, same⟩ := (sums.artifactFor className id).mp owned
    refine Option.ne_none_iff_exists'.mp ?_
    rw [Ne, sums.dependencyOf_none]
    exact fun nobody => nobody shard last.mem same
  refine ⟨holds, standsFor, fun manifest className => ?_⟩
  unfold Classification.dependencyFor
  cases owned : index.artifactFor className with
  | none => rfl
  | some id =>
      obtain ⟨dependency, found⟩ := standsFor className id owned
      change (if manifest.isSelf id then none else _) = if manifest.isSelf id then none else _
      rw [found]
      rfl

/-- **What an index says after any steps** is what the shards inserted since the last clearing
say, and its maps agree. -/
theorem sums_run (steps : List IndexStep) :
    (run steps).Sums (sinceClear steps) ∧ (run steps).Coherent := by
  have sums : (run steps).Sums (sinceClear steps) := by
    rw [run_eq_merge]
    exact sums_merge _
  exact ⟨sums, sums.coherent⟩

end ClassIndex

end DependencyAudit
