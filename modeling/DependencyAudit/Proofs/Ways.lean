/-
# DependencyAudit.Proofs.Ways -- ways through a file system

Paths are told apart by their components, so `d//a` and `d/./a` are spellings of `d/a`.  A
system follows a path segment by segment, and a segment that adds nothing leads from a
directory to itself; but behind a file it leads nowhere, so a spelling may lead somewhere where
another one does not.  What it never does is to lead elsewhere (`destination_unique`).

A file is written where its path leads, and there is a file or nothing there before.  So every
path that leads somewhere leads there afterwards as well, and the path that was written to
leads to what was written (`read?_of_store`).

Both come from one fact: segments that add nothing may be left out of a way, and files and
directories may come to be where it does not pass (`follow_of_thins`), since a file is met at the
end of a way only, and so is a name where there is nothing.
-/
import DependencyAudit.FileSystem.Change
import Mathlib.Logic.Basic
import Mathlib.Tactic.ByContra

namespace DependencyAudit

set_option autoImplicit false

/-! ## Segments that count -/

namespace Path

/-- The segments of a path that add something. -/
def solid (path : Path) : List String :=
  path.segments.filter fun segment => !isIdle segment

/-- Segments of which some that add nothing are left out. -/
inductive Thins : List String → List String → Prop where
  | nil : Thins [] []
  | keep (segment : String) {segments thinned : List String} (rest : Thins segments thinned) :
      Thins (segment :: segments) (segment :: thinned)
  | drop {segment : String} {segments thinned : List String} (idle : isIdle segment = true)
      (rest : Thins segments thinned) : Thins (segment :: segments) thinned

theorem Thins.append (front : List String) {segments thinned : List String}
    (thins : Thins segments thinned) : Thins (front ++ segments) (front ++ thinned) := by
  induction front with
  | nil => exact thins
  | cons segment front rest => exact .keep segment rest

theorem thins_self (segments : List String) : Thins segments segments := by
  have all := (Thins.nil).append segments
  rwa [List.append_nil] at all

theorem thins_solid (path : Path) : Thins path.segments path.solid := by
  unfold solid
  induction path.segments with
  | nil => exact .nil
  | cons segment segments rest =>
      cases idle : isIdle segment with
      | true =>
          rw [List.filter_cons_of_neg (by simp [idle])]
          exact .drop idle rest
      | false =>
          rw [List.filter_cons_of_pos (by simp [idle])]
          exact .keep segment rest

/-- The segment of a component. -/
def segmentOf : Component → String
  | .root => ""
  | .current => "."
  | .parent => ".."
  | .normal name => name

theorem segmentOf_of_componentOf? {segment : String} {component : Component}
    (given : componentOf? segment = some component) : segmentOf component = segment := by
  unfold componentOf? at given
  split at given
  · cases given
  · split at given
    · rename_i parent
      cases given
      exact parent.symm
    · cases given
      rfl

/-- The segments that add something are those of the components they add. -/
theorem map_segmentOf (segments : List String) :
    (segments.filterMap componentOf?).map segmentOf =
      segments.filter fun segment => !isIdle segment := by
  induction segments with
  | nil => rfl
  | cons segment segments rest =>
      cases given : componentOf? segment with
      | none => simp [isIdle, given, rest]
      | some component =>
          simp [isIdle, given, rest, segmentOf_of_componentOf? given]

theorem componentOf?_ne_lead {segment : String} :
    componentOf? segment ≠ some .root ∧ componentOf? segment ≠ some .current := by
  unfold componentOf?
  split
  · simp
  · split <;> simp

theorem root_mem_components {path : Path} :
    .root ∈ path.components ↔ path.isAbsolute = true := by
  have others : .root ∉ path.segments.filterMap componentOf? := by
    intro member
    obtain ⟨segment, _, given⟩ := List.mem_filterMap.mp member
    exact componentOf?_ne_lead.1 given
  simp only [components]
  split
  · rename_i absolute
    simp [absolute]
  · rename_i relative
    split <;> simp [relative, others]

/-- Apart from what leads them, components come from segments. -/
theorem filter_components (path : Path) :
    path.components.filter (fun component => component ≠ .root ∧ component ≠ .current) =
      path.segments.filterMap componentOf? := by
  have others : (path.segments.filterMap componentOf?).filter
      (fun component => component ≠ .root ∧ component ≠ .current) =
        path.segments.filterMap componentOf? := by
    rw [List.filter_eq_self]
    intro component member
    obtain ⟨segment, _, given⟩ := List.mem_filterMap.mp member
    have lead := @componentOf?_ne_lead segment
    rw [given] at lead
    simpa using lead
  simp only [components]
  split
  · rw [List.filter_cons_of_neg (by simp), others]
  · split
    · rw [List.filter_cons_of_neg (by simp), others]
    · exact others

/-- Spellings of one path start alike and have the same segments that add something. -/
theorem solid_eq_of_same {path other : Path} (same : Same path other) :
    path.isAbsolute = other.isAbsolute ∧ path.solid = other.solid := by
  have equal : path.components = other.components := same
  constructor
  · rw [Bool.eq_iff_iff, ← root_mem_components, ← root_mem_components, equal]
  · rw [solid, solid, ← map_segmentOf, ← map_segmentOf, ← filter_components, ← filter_components,
      equal]

end Path

/-! ## Ways -/

namespace FileSystem

open DependencyAudit.Path

section Following

variable {files others : FileSystem}

/-- No way leads on from a location: nothing is there, or a file. -/
def Vacant (files : FileSystem) (place : Location) : Prop :=
  ∀ entry, files.entryAt? place = some entry → ∃ held, entry = .file held

theorem vacant_of_none {place : Location} (missing : files.entryAt? place = none) :
    files.Vacant place := by
  intro entry found
  rw [missing] at found
  cases found

theorem vacant_of_file {place : Location} {held : FileContent}
    (there : files.entryAt? place = some (.file held)) : files.Vacant place := by
  intro entry found
  rw [there] at found
  exact ⟨held, (Option.some.inj found).symm⟩

/-- Others differ only where no way leads on, and have no links there. -/
def Extends (files others : FileSystem) : Prop :=
  ∀ place, files.entryAt? place = others.entryAt? place ∨
    files.Vacant place ∧ ∀ target, others.entryAt? place ≠ some (.link target)

theorem Extends.refl (files : FileSystem) : Extends files files :=
  fun _ => .inl rfl

theorem idle_of_isIdle {segment : String} (idle : isIdle segment = true) :
    segment = "" ∨ segment = "." := by
  by_contra solid
  unfold isIdle componentOf? at idle
  rw [if_neg solid] at idle
  split at idle <;> cases idle

/-- Where no way leads on, a way ends. -/
theorem followUntil_of_vacant
    {onLink : Location → Path → List String → Except PathFault Location} {location : Location}
    {segment : String} (solid : ¬ (segment = "" ∨ segment = ".")) (forward : segment ≠ "..")
    (short : ¬ longestName < segment.utf8ByteSize) (vacant : files.Vacant (location ++ [segment]))
    {rest : List String} {found : Location} :
    files.followUntil onLink location (segment :: rest) = .ok found ↔
      rest = [] ∧ location ++ [segment] = found := by
  rw [followUntil, if_neg solid, if_neg forward, if_neg short]
  cases entry : files.entryAt? (location ++ [segment]) with
  | none => by_cases ended : rest = [] <;> simp [ended]
  | some there =>
      obtain ⟨held, rfl⟩ := vacant there entry
      by_cases ended : rest = [] <;> simp [ended]

/-- A way ends at a name that is no link, whatever is there. -/
theorem followUntil_of_unlinked
    {onLink : Location → Path → List String → Except PathFault Location} {location : Location}
    {segment : String} (solid : ¬ (segment = "" ∨ segment = ".")) (forward : segment ≠ "..")
    (short : ¬ longestName < segment.utf8ByteSize)
    (unlinked : ∀ target, files.entryAt? (location ++ [segment]) ≠ some (.link target)) :
    files.followUntil onLink location [segment] = .ok (location ++ [segment]) := by
  rw [followUntil, if_neg solid, if_neg forward, if_neg short]
  cases entry : files.entryAt? (location ++ [segment]) with
  | none => rfl
  | some there =>
      cases there with
      | file content => rfl
      | directory => rfl
      | link target => exact absurd entry (unlinked target)

/-- Where a way leads on, it does so among the others too. -/
theorem Extends.passage_or_vacant (grown : Extends files others) (place : Location) :
    (∃ entry, files.entryAt? place = some entry ∧ others.entryAt? place = some entry ∧
      ∀ held, entry ≠ .file held) ∨
    files.Vacant place ∧ ∀ target, others.entryAt? place ≠ some (.link target) := by
  rcases grown place with same | vacant
  · by_cases passage : files.Vacant place
    · refine .inr ⟨passage, fun target linked => ?_⟩
      obtain ⟨held, impossible⟩ := passage (.link target) (by rw [same, linked])
      cases impossible
    · obtain ⟨entry, found⟩ := not_forall.mp passage
      obtain ⟨there, other⟩ := Classical.not_imp.mp found
      exact .inl ⟨entry, there, same ▸ there, fun held kind => other ⟨held, kind⟩⟩
  · exact .inr vacant

/-- A way stays the same without segments that add nothing and past what comes to be, if that
holds behind links. -/
theorem followUntil_of_thins (grown : Extends files others)
    {onLink onOther : Location → Path → List String → Except PathFault Location}
    (links : ∀ location target rest thinned found, Thins rest thinned →
      onLink location target rest = .ok found → onOther location target thinned = .ok found)
    {segments thinned : List String} (thins : Thins segments thinned) :
    ∀ {location found : Location}, files.followUntil onLink location segments = .ok found →
      others.followUntil onOther location thinned = .ok found := by
  induction thins with
  | nil => exact fun followed => followed
  | drop idle _ way =>
      intro location found followed
      rw [followUntil, if_pos (idle_of_isIdle idle)] at followed
      exact way followed
  | @keep segment segments thinned thins way =>
      intro location found followed
      by_cases idle : segment = "" ∨ segment = "."
      · rw [followUntil, if_pos idle] at followed ⊢
        exact way followed
      by_cases up : segment = ".."
      · rw [followUntil, if_neg idle, if_pos up] at followed ⊢
        exact way followed
      by_cases long : longestName < segment.utf8ByteSize
      · rw [followUntil, if_neg idle, if_neg up, if_pos long] at followed
        cases followed
      rcases grown.passage_or_vacant (location ++ [segment]) with
        ⟨entry, here, there, passage⟩ | ⟨vacant, unlinked⟩
      · rw [followUntil, if_neg idle, if_neg up, if_neg long] at followed ⊢
        rw [here] at followed
        rw [there]
        cases entry with
        | directory => exact way followed
        | link target => exact links _ _ _ _ _ thins followed
        | file content => exact absurd rfl (passage content)
      · -- A way that ends here has no segments left, and so none that were left out.
        obtain ⟨rfl, rfl⟩ := (followUntil_of_vacant idle up long vacant).mp followed
        cases thins
        exact followUntil_of_unlinked idle up long unlinked

theorem follow_of_thins (grown : Extends files others) :
    ∀ (remaining : Nat) {segments thinned : List String}, Thins segments thinned →
      ∀ {location found : Location}, files.follow remaining location segments = .ok found →
        others.follow remaining location thinned = .ok found
  | 0, _, _, thins, _, _, followed => by
      refine followUntil_of_thins grown (fun location target rest thinned found _ refused => ?_)
        thins followed
      cases refused
  | remaining + 1, _, _, thins, _, _, followed => by
      refine followUntil_of_thins grown (fun location target rest thinned found behind led => ?_)
        thins followed
      exact follow_of_thins grown remaining (behind.append target.segments) led

theorem locate?_eq_some_iff {path : Path} {place : Location} :
    files.locate? path = some place ↔ files.destination path = .ok place := by
  unfold locate?
  cases files.destination path <;> simp [Except.toOption]

/-- Every path that leads somewhere leads there among the others too. -/
theorem locate?_of_extends (grown : Extends files others)
    (stays : files.workingDirectory = others.workingDirectory) {path : Path} {found : Location}
    (located : files.locate? path = some found) : others.locate? path = some found := by
  rw [locate?_eq_some_iff, destination] at located ⊢
  split at located
  · cases located
  · rename_i named
    rw [if_neg named]
    split at located
    · cases located
    · rename_i admissible
      rw [if_neg admissible]
      rw [origin, stays] at located
      exact follow_of_thins grown linkLimit (thins_self path.segments) located

/-! ## Spellings -/

/-- Spellings of one path that lead somewhere lead to one place. -/
theorem destination_unique {path other : Path} (same : Same path other) {place place' : Location}
    (leads : files.destination path = .ok place) (leads' : files.destination other = .ok place') :
    place = place' := by
  have solid : ∀ {spelling : Path} {found : Location}, files.destination spelling = .ok found →
      files.follow linkLimit (files.origin spelling) spelling.solid = .ok found := by
    intro spelling found leads
    unfold destination at leads
    split at leads
    · cases leads
    · split at leads
      · cases leads
      · exact follow_of_thins (.refl files) linkLimit (thins_solid spelling) leads
  obtain ⟨start, segments⟩ := solid_eq_of_same same
  have first := solid leads
  have second := solid leads'
  rw [origin, start, segments] at first
  rw [origin, first] at second
  exact Except.ok.inj second

/-- A path that holds a file is no directory in another spelling. -/
theorem isDirectory_of_same_file {path other : Path} (same : Same path other)
    {content : FileContent} (held : files.fileAt? path = some content) :
    files.isDirectory other = false := by
  by_contra directory
  rw [Bool.not_eq_false, isDirectory, decide_eq_true_eq] at directory
  obtain ⟨place, located, entry⟩ := Option.bind_eq_some_iff.mp (found?_of_fileAt? held)
  obtain ⟨place', located', entry'⟩ := Option.bind_eq_some_iff.mp directory
  rw [locate?_eq_some_iff] at located located'
  rw [destination_unique same located located', entry'] at entry
  cases entry

end Following

/-! ## Written files -/

section Written

variable {files : FileSystem} {place : Location} {content : FileContent}

theorem Vacant.ne_nil (vacant : files.Vacant place) : place ≠ [] := by
  rintro rfl
  obtain ⟨held, impossible⟩ := vacant .directory (by rw [entryAt?, if_pos rfl])
  cases impossible

theorem extends_set (vacant : files.Vacant place) {entry : FileEntry}
    (unlinked : ∀ target, entry ≠ .link target) : Extends files (files.set place entry) := by
  intro other
  by_cases here : other = place
  · subst here
    refine .inr ⟨vacant, fun target linked => unlinked target ?_⟩
    rw [entryAt?_set_self vacant.ne_nil] at linked
    exact Option.some.inj linked
  · exact .inl (entryAt?_set_of_ne here).symm

/-- Every path that leads somewhere leads there after a file was written. -/
theorem locate?_set (vacant : files.Vacant place) {path : Path} {found : Location}
    (located : files.locate? path = some found) :
    (files.set place (.file content)).locate? path = some found :=
  locate?_of_extends (extends_set vacant fun _ => by simp) rfl located

/-- A file is put where its path leads, and there is a file or nothing there before. -/
theorem exists_place_of_put? {path : Path} {written : FileSystem}
    (put : files.put? path content = some written) :
    ∃ place, files.locate? path = some place ∧ files.Vacant place ∧
      written = files.set place (.file content) := by
  obtain ⟨place, located, put⟩ := Option.bind_eq_some_iff.mp put
  refine ⟨place, located, ?_⟩
  cases entry : files.entryAt? place with
  | none =>
      simp only [entry, Option.some.injEq] at put
      exact ⟨vacant_of_none entry, put.symm⟩
  | some there =>
      cases there with
      | file held =>
          simp only [entry, Option.some.injEq] at put
          exact ⟨vacant_of_file entry, put.symm⟩
      | directory => simp [entry] at put
      | link target => simp [entry] at put

theorem read?_of_put? {path : Path} {written : FileSystem}
    (put : files.put? path content = some written) :
    written.read? path = some content.octets := by
  obtain ⟨place, located, vacant, rfl⟩ := exists_place_of_put? put
  have found : (files.set place (.file content)).found? path = some (.file content) := by
    rw [found?, locate?_set vacant located]
    exact entryAt?_set_self vacant.ne_nil
  rw [read?, fileAt?, found]
  rfl

/-- What is stored at a path is read there. -/
theorem read?_of_store {path : Path} {octets : List UInt8} {written : FileSystem}
    (stored : files.store path octets = (written, true)) : written.read? path = some octets := by
  unfold store at stored
  split at stored
  split at stored
  · split at stored
    · rename_i result put
      cases stored
      exact read?_of_put? put
    · cases stored
  · cases stored

end Written

end FileSystem

end DependencyAudit
