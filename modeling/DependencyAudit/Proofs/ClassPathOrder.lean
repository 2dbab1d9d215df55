/-
# DependencyAudit.Proofs.ClassPathOrder -- what the order of a class path decides

Where two artifacts of a class path collide, by one identity or by a class that both hold, the
later one counts.  Nothing else depends on the order: a class path put into another order in
which any two colliding artifacts stand as before (`Reordering`, `Collide`) has an index that
answers alike (`populate_reordered`).  Both choices that an index makes are choices of a last
member, and such a member stays the last one if all candidates keep their order
(`Reordering.lastMember_iff`).

Artifacts that are no containers can be put in anywhere (`populate_padded`).  If there is no
index, the first container that cannot be listed is to blame (`populate_eq_error_iff`).  All
this is put together in `populate_up_to_collisions`.
-/
import DependencyAudit.Proofs.IndexRuns
import DependencyAudit.Proofs.Provenance
import Mathlib.Data.Fintype.Basic
import Mathlib.Logic.Equiv.Fin.Rotate
import Mathlib.Order.Fin.Basic
import Mathlib.Tactic.FinCases

namespace DependencyAudit

set_option autoImplicit false

/-! ## Lists in another order -/

/-- A list in another order, with a new place for each member: related members stay in the
order in which they are. -/
structure Reordering {α : Type} (related : α → α → Prop) (list other : List α) where
  place : Fin list.length ≃ Fin other.length
  same : ∀ i, other[place i] = list[i]
  keeps : ∀ i j, i < j → related list[i] list[j] → place i < place j

/-- A member is the last one with a property at the place after which the property holds
nowhere. -/
theorem lastMember_iff_getElem {α : Type} {property : α → Prop} {list : List α} {member : α} :
    LastMember property list member ↔
      ∃ i : Fin list.length, list[i] = member ∧ property list[i] ∧
        ∀ j, i < j → ¬ property list[j] := by
  constructor
  · rintro ⟨before, after, rfl, held, none_later⟩
    refine ⟨⟨before.length, by simp⟩, by simp, by simpa using held, ?_⟩
    rintro ⟨j, inside⟩ later
    have beyond : before.length < j := later
    apply none_later
    have there : after[j - before.length - 1]? = some (before ++ member :: after)[j] := by
      rw [← List.getElem?_eq_getElem inside, List.getElem?_append_right (by omega),
        List.getElem?_cons, if_neg (by omega)]
    exact List.mem_of_getElem? there
  · rintro ⟨⟨i, inside⟩, rfl, held, none_later⟩
    refine ⟨list.take i, list.drop (i + 1), ?_, held, ?_⟩
    · simp only [Fin.getElem_fin, List.getElem_cons_drop, List.take_append_drop]
    · intro later among
      obtain ⟨k, bound, rfl⟩ := List.mem_iff_getElem.mp among
      rw [List.length_drop] at bound
      have beyond := none_later ⟨i + 1 + k, by omega⟩ (Fin.mk_lt_mk.mpr (by omega))
      simpa using beyond

namespace Reordering

variable {α : Type} {related : α → α → Prop} {list other : List α}

theorem same_symm (order : Reordering related list other) (j : Fin other.length) :
    list[order.place.symm j] = other[j] := by
  have there := order.same (order.place.symm j)
  simp only [Equiv.apply_symm_apply] at there
  exact there.symm

/-- Back to the first order. -/
def symm (order : Reordering related list other)
    (symmetric : ∀ a b, related a b → related b a) : Reordering related other list where
  place := order.place.symm
  same := order.same_symm
  keeps i j before relates := by
    rw [← order.same_symm i, ← order.same_symm j] at relates
    rcases lt_trichotomy (order.place.symm i) (order.place.symm j) with kept | equal | swapped
    · exact kept
    · exact absurd (order.place.symm.injective equal) (ne_of_lt before)
    · have back := order.keeps _ _ swapped (symmetric _ _ relates)
      rw [Equiv.apply_symm_apply, Equiv.apply_symm_apply] at back
      exact absurd back (lt_asymm before)

theorem mem_iff (order : Reordering related list other) {member : α} :
    member ∈ other ↔ member ∈ list := by
  simp only [List.mem_iff_get]
  constructor
  · rintro ⟨j, rfl⟩
    exact ⟨order.place.symm j, order.same_symm j⟩
  · rintro ⟨i, rfl⟩
    exact ⟨order.place i, order.same i⟩

/-- The last of several candidates stays the last, if all candidates are related. -/
theorem lastMember {property : α → Prop} {member : α} (order : Reordering related list other)
    (relates : ∀ a b, property a → property b → related a b)
    (last : LastMember property list member) : LastMember property other member := by
  obtain ⟨i, rfl, held, none_later⟩ := lastMember_iff_getElem.mp last
  refine lastMember_iff_getElem.mpr ⟨order.place i, order.same i, ?_, ?_⟩
  · rwa [order.same]
  · intro j later there
    rw [← order.same_symm] at there
    -- A candidate behind the new place of the last one was not behind it before.
    rcases lt_trichotomy i (order.place.symm j) with behind | here | before
    · exact none_later _ behind there
    · rw [here, Equiv.apply_symm_apply] at later
      exact lt_irrefl _ later
    · have ahead := order.keeps _ _ before (relates _ _ there held)
      rw [Equiv.apply_symm_apply] at ahead
      exact lt_asymm later ahead

theorem lastMember_iff {property : α → Prop} {member : α} (order : Reordering related list other)
    (symmetric : ∀ a b, related a b → related b a)
    (relates : ∀ a b, property a → property b → related a b) :
    LastMember property other member ↔ LastMember property list member :=
  ⟨(order.symm symmetric).lastMember relates, order.lastMember relates⟩

end Reordering

/-! ## Indexes of class paths in another order -/

/-- Two indexes answer every question alike. -/
structure ClassIndex.Alike (index other : ClassIndex) : Prop where
  artifactFor : ∀ className, index.artifactFor className = other.artifactFor className
  classesOf : ∀ id, index.classesOf id = other.classesOf id
  dependencyOf : ∀ id, index.dependencyOf id = other.dependencyOf id

/-- Classes are gathered in no order. -/
theorem ClassIndex.classesOf_merge_congr {shards others : List Shard}
    (same : ∀ shard, shard ∈ shards ↔ shard ∈ others) (id : ArtifactId) :
    (empty.merge shards).classesOf id = (empty.merge others).classesOf id := by
  have gatheredAlike : NameSet.ofList (gathered id shards) = .ofList (gathered id others) := by
    ext className
    simp only [NameSet.mem_ofList, mem_gathered, same]
  simp only [classesOf_merge, same, gatheredAlike]

namespace Indexing

section Orders

variable {files : FileSystem}

/-- Two artifacts have one identity, or hold a class both. -/
def Collide (files : FileSystem) (first second : ResolvedArtifact) : Prop :=
  first.id = second.id ∨ ∃ className, Classification.Holds files className first ∧
    Classification.Holds files className second

theorem Collide.symm {first second : ResolvedArtifact} (collide : Collide files first second) :
    Collide files second first := by
  rcases collide with same | ⟨className, left, right⟩
  · exact .inl same.symm
  · exact .inr ⟨className, right, left⟩

/-- A class path in another order is indexed, and its index answers alike. -/
theorem populate_reordered {artifacts others : List ResolvedArtifact} {index : ClassIndex}
    (populated : populate files artifacts = .ok index)
    (order : Reordering (Collide files) artifacts others) :
    ∃ reordered, populate files others = .ok reordered ∧ reordered.Alike index := by
  obtain ⟨listed, shape⟩ := populate_eq_ok_iff.mp populated
  have again : populate files others =
      .ok (ClassIndex.empty.merge (others.filterMap (ResolvedArtifact.shard? files))) := by
    refine populate_eq_ok_iff.mpr ⟨?_, rfl⟩
    intro artifact member
    exact listed artifact (order.mem_iff.mp member)
  refine ⟨_, again, ?_, ?_, ?_⟩
  · intro className
    apply Option.ext
    intro id
    rw [artifactFor_populate again, artifactFor_populate populated]
    refine exists_congr fun owner => and_congr_left fun _ => ?_
    refine order.lastMember_iff (fun _ _ => Collide.symm) ?_
    -- All holders of the class collide with one another.
    intro a b left right
    exact .inr ⟨className, left, right⟩
  · intro id
    rw [shape]
    apply ClassIndex.classesOf_merge_congr
    intro shard
    simp only [List.mem_filterMap, order.mem_iff]
  · intro id
    apply Option.ext
    intro dependency
    rw [dependencyOf_populate again, dependencyOf_populate populated]
    refine exists_congr fun stand => and_congr_left fun _ => ?_
    refine order.lastMember_iff (fun _ _ => Collide.symm) ?_
    rintro a b ⟨_, first⟩ ⟨_, second⟩
    exact .inl (first.trans second.symm)

/-! ## Artifacts that are no containers -/

/-- A class path with artifacts put in that are no containers. -/
inductive Pads (files : FileSystem) : List ResolvedArtifact → List ResolvedArtifact → Prop where
  | nil : Pads files [] []
  | keep (artifact : ResolvedArtifact) {artifacts padded : List ResolvedArtifact}
      (rest : Pads files artifacts padded) : Pads files (artifact :: artifacts) (artifact :: padded)
  | put {artifact : ResolvedArtifact} {artifacts padded : List ResolvedArtifact}
      (foreign : artifact.container? files = none) (rest : Pads files artifacts padded) :
      Pads files artifacts (artifact :: padded)

theorem populateFrom_padded {artifacts padded : List ResolvedArtifact}
    (pads : Pads files artifacts padded) :
    ∀ index, populateFrom files padded index = populateFrom files artifacts index := by
  induction pads with
  | nil => intro index; rfl
  | keep artifact _ same =>
      intro index
      rw [populateFrom, populateFrom]
      cases list files artifact with
      | error error => rfl
      | ok listing => exact same _
  | put foreign _ same =>
      intro index
      rw [populateFrom, list, foreign]
      exact same index

/-- What is no container leaves no trace, not even in the failure of others. -/
theorem populate_padded {artifacts padded : List ResolvedArtifact}
    (pads : Pads files artifacts padded) : populate files padded = populate files artifacts :=
  populateFrom_padded pads _

/-! ## Failures -/

/-- An artifact is taken for a container, but it is missing, or its classes cannot be had. -/
def Unlistable (files : FileSystem) (artifact : ResolvedArtifact) (fault : ListingFault) : Prop :=
  ∃ container, artifact.container? files = some container ∧
    (files.exists artifact.file = false ∧ fault = .missing ∨
      files.exists artifact.file = true ∧
        ClassListing.ofContainer files container artifact.file = .error fault)

theorem list_eq_error_iff {artifact : ResolvedArtifact} {error : AuditError} :
    list files artifact = .error error ↔
      ∃ fault, Unlistable files artifact fault ∧
        error = .artifact artifact.id artifact.file fault := by
  unfold list Unlistable
  cases kind : artifact.container? files with
  | none => simp
  | some container =>
      cases present : files.exists artifact.file with
      | false => simp [scan, present, eq_comm]
      | true =>
          cases found : ClassListing.ofContainer files container artifact.file with
          | error fault => simp [scan, present, found, Except.map, Except.mapError, eq_comm]
          | ok classes => simp [scan, present, found, Except.map, Except.mapError]

theorem exists_listing_iff {artifact : ResolvedArtifact} :
    (∃ listing, list files artifact = .ok listing) ↔
      ∀ fault, ¬ Unlistable files artifact fault := by
  constructor
  · rintro ⟨listing, listed⟩ fault unlistable
    have failed := list_eq_error_iff.mpr ⟨fault, unlistable, rfl⟩
    rw [listed] at failed
    cases failed
  · intro listable
    cases answer : list files artifact with
    | ok listing => exact ⟨listing, rfl⟩
    | error error =>
        obtain ⟨fault, unlistable, _⟩ := list_eq_error_iff.mp answer
        exact absurd unlistable (listable fault)

theorem populateFrom_eq_error_iff {artifacts : List ResolvedArtifact} {error : AuditError} :
    ∀ {index : ClassIndex}, populateFrom files artifacts index = .error error ↔
      ∃ before failed after, artifacts = before ++ failed :: after ∧
        (∀ artifact ∈ before, ∃ listing, list files artifact = .ok listing) ∧
          list files failed = .error error := by
  induction artifacts with
  | nil => simp [populateFrom]
  | cons artifact rest failing =>
      intro index
      rw [populateFrom]
      cases answer : list files artifact with
      | error found =>
          change Except.error found = _ ↔ _
          rw [Except.error.injEq]
          constructor
          · rintro rfl
            exact ⟨[], artifact, rest, rfl, by simp, answer⟩
          · rintro ⟨before, failed, after, shape, listed, blamed⟩
            cases before with
            | nil =>
                obtain ⟨rfl, rfl⟩ := List.cons.inj shape
                exact Except.error.inj (answer.symm.trans blamed)
            | cons first more =>
                obtain ⟨rfl, rfl⟩ := List.cons.inj shape
                obtain ⟨listing, fine⟩ := listed _ List.mem_cons_self
                rw [answer] at fine
                cases fine
      | ok listing =>
          change populateFrom files rest _ = _ ↔ _
          rw [failing]
          constructor
          · rintro ⟨before, failed, after, rfl, listed, blamed⟩
            refine ⟨artifact :: before, failed, after, rfl, ?_, blamed⟩
            exact List.forall_mem_cons.mpr ⟨⟨listing, answer⟩, listed⟩
          · rintro ⟨before, failed, after, shape, listed, blamed⟩
            cases before with
            | nil =>
                obtain ⟨rfl, rfl⟩ := List.cons.inj shape
                rw [answer] at blamed
                cases blamed
            | cons first more =>
                obtain ⟨rfl, rfl⟩ := List.cons.inj shape
                exact ⟨more, failed, after, rfl, (List.forall_mem_cons.mp listed).2, blamed⟩

/-- There is no index exactly if some container cannot be listed, and the first one is
reported. -/
theorem populate_eq_error_iff {artifacts : List ResolvedArtifact} {error : AuditError} :
    populate files artifacts = .error error ↔
      ∃ before failed after fault, artifacts = before ++ failed :: after ∧
        (∀ artifact ∈ before, ∀ fault, ¬ Unlistable files artifact fault) ∧
          Unlistable files failed fault ∧ error = .artifact failed.id failed.file fault := by
  simp only [populate, populateFrom_eq_error_iff, exists_listing_iff, list_eq_error_iff,
    exists_and_left]

/-- **The order of a class path matters for collisions only.**  In any other order that keeps
colliding artifacts as they stand, a class path has an index again, with the same answers; what
is no container may be put in anywhere; and if there is no index, the first container that
cannot be listed is the reason. -/
theorem populate_up_to_collisions (files : FileSystem) (artifacts : List ResolvedArtifact) :
    (∀ index, populate files artifacts = .ok index → ∀ others,
      Reordering (Collide files) artifacts others →
        ∃ reordered, populate files others = .ok reordered ∧ reordered.Alike index) ∧
    (∀ padded, Pads files artifacts padded → populate files padded = populate files artifacts) ∧
    ∀ error, populate files artifacts = .error error ↔
      ∃ before failed after fault, artifacts = before ++ failed :: after ∧
        (∀ artifact ∈ before, ∀ fault, ¬ Unlistable files artifact fault) ∧
          Unlistable files failed fault ∧ error = .artifact failed.id failed.file fault := by
  refine ⟨?_, ?_, ?_⟩
  · intro index populated others order
    exact populate_reordered populated order
  · intro padded pads
    exact populate_padded pads
  · intro error
    exact populate_eq_error_iff

end Orders

/-! ### A class path whose last artifact comes first -/

namespace Rotated

/-- Two directories hold the class `C`, and a third one holds another class. -/
def files : FileSystem where
  entries := [(["a"], .directory), (["a", "C.class"], .file ⟨[], 0⟩), (["b"], .directory),
    (["b", "C.class"], .file ⟨[], 0⟩), (["b", "D.class"], .file ⟨[], 0⟩), (["c"], .directory),
    (["c", "E.class"], .file ⟨[], 0⟩), (["lib.aar"], .file ⟨[], 0⟩)]
  workingDirectory := []
  clock := 0

def a : ResolvedArtifact := ⟨.module "g" "a" (some "1"), ⟨"a"⟩, none⟩

def b : ResolvedArtifact := ⟨.project "b", ⟨"b"⟩, some "g:b:2"⟩

def c : ResolvedArtifact := ⟨.module "g" "c" none, ⟨"c"⟩, none⟩

/-- No container, though its identity is that of one. -/
def archive : ResolvedArtifact := ⟨.module "g" "a" (some "1"), ⟨"lib.aar"⟩, none⟩

def gone : ResolvedArtifact := ⟨.module "g" "d" none, ⟨"gone.jar"⟩, none⟩

theorem listings : a.listing? files = some ["C"] ∧ b.listing? files = some ["C", "D"] ∧
    c.listing? files = some ["E"] := by
  decide

theorem populated : populate files [a, b, c] =
    .ok (ClassIndex.empty.merge [⟨a, ["C"]⟩, ⟨b, ["C", "D"]⟩, ⟨c, ["E"]⟩]) := by
  refine populate_eq_ok_iff.mpr ⟨?_, ?_⟩
  · simp only [List.forall_mem_cons, List.not_mem_nil, false_imp_iff, implies_true, and_true]
    refine ⟨⟨.scanned .directory ["C"], ?_⟩, ⟨.scanned .directory ["C", "D"], ?_⟩,
      .scanned .directory ["E"], ?_⟩ <;> exact Outcome.toOption_eq_some.mp (by decide)
  · simp [ResolvedArtifact.shard?, listings]

theorem not_collide_c {artifact : ResolvedArtifact} (member : artifact ∈ [a, b]) :
    ¬ Collide files artifact c := by
  rintro (same | ⟨className, ⟨classes, listed, held⟩, ⟨others, listed', held'⟩⟩)
  · revert member same
    simp only [List.mem_cons, List.not_mem_nil, or_false]
    rintro (rfl | rfl) <;> decide
  · obtain rfl := Option.some.inj (listings.2.2.symm.trans listed')
    obtain rfl := List.mem_singleton.mp held'
    simp only [List.mem_cons, List.not_mem_nil, or_false] at member
    rcases member with rfl | rfl
    · obtain rfl := Option.some.inj (listings.1.symm.trans listed)
      simp at held
    · obtain rfl := Option.some.inj (listings.2.1.symm.trans listed)
      simp at held

/-- The third artifact moves to the front, past two others that it does not collide with. -/
def order : Reordering (Collide files) [a, b, c] [c, a, b] where
  place := finRotate 3
  same i := by fin_cases i <;> rfl
  keeps i j before collide := by
    fin_cases j
    · exact absurd before (Fin.not_lt_zero i)
    · fin_cases i <;> revert before <;> decide
    · fin_cases i
      · exact absurd collide (not_collide_c (by simp))
      · exact absurd collide (not_collide_c (by simp))
      · exact absurd before (lt_irrefl _)

theorem unlistable_gone : Unlistable files gone .missing :=
  ⟨.jar, by decide, .inl ⟨by decide, rfl⟩⟩

end Rotated

theorem populate_up_to_collisions_of_rotated :
    (∃ reordered, populate Rotated.files [Rotated.c, Rotated.a, Rotated.b] = .ok reordered ∧
      reordered.artifactFor "C" = some (.project "b")) ∧
    populate Rotated.files [Rotated.archive, Rotated.gone, Rotated.a] =
      .error (.artifact (.module "g" "d" none) ⟨"gone.jar"⟩ .missing) := by
  constructor
  · obtain ⟨reordered, again, alike⟩ :=
      (populate_up_to_collisions Rotated.files _).1 _ Rotated.populated _ Rotated.order
    refine ⟨reordered, again, ?_⟩
    rw [alike.artifactFor]
    decide
  · have foreign : Rotated.archive.container? Rotated.files = none := by decide
    rw [(populate_up_to_collisions Rotated.files [Rotated.gone, Rotated.a]).2.1 _
      (.put foreign (.keep _ (.keep _ .nil)))]
    exact ((populate_up_to_collisions Rotated.files _).2.2 _).mpr
      ⟨[], Rotated.gone, [Rotated.a], .missing, rfl, by simp, Rotated.unlistable_gone, rfl⟩

end Indexing

end DependencyAudit
