/-
# DependencyAudit.Proofs.Additions -- what storing a file changes

A file is stored with the directory it lies in, and with the directories above that, as far as
they are missing; the system may refuse any of these steps, and what was made before stays.
However far it gets, nothing changes but at the path that was written and at the paths above it
(`touches_store`): there was a file or nothing at the one, and nothing at the others.

`Leaves` says what is left at one place and `Touches` says it of all places.  Each step is of
this kind (`touches_add`, `touches_makeEach`).  Every path that leads somewhere leads there
afterwards (`Touches.locate?`), so changes can be made one after the other (`Touches.trans`),
and what a path has led to stays said of it.
-/
import DependencyAudit.Proofs.Parents

namespace DependencyAudit

set_option autoImplicit false

/-- The paths above a path, the nearest first. -/
def Path.parents (path : Path) : List Path :=
  (path.parent?.map ancestors).getD []

namespace FileSystem

/-! ## What storing changes -/

/-- What is left at a place when files are written to some paths and directories made at others. -/
inductive Leaves (before after : FileSystem) (targets parents : List Path) (place : Location) :
    Prop where
  | kept (same : after.entryAt? place = before.entryAt? place)
  /-- A path that was to be written leads here, where a file or nothing was. -/
  | written {target : Path} {content : FileContent} (listed : target ∈ targets)
      (leads : after.locate? target = some place) (vacant : before.Vacant place)
      (holds : after.entryAt? place = some (.file content))
  /-- A path that a directory was missing at leads here. -/
  | made {parent : Path} (listed : parent ∈ parents) (leads : after.locate? parent = some place)
      (missing : before.entryAt? place = none) (holds : after.entryAt? place = some .directory)

/-- Files change only where some paths are written, and where directories are missing at others. -/
structure Touches (before after : FileSystem) (targets parents : List Path) : Prop where
  workingDirectory : after.workingDirectory = before.workingDirectory
  clock : after.clock = before.clock
  leaves : ∀ place, Leaves before after targets parents place

namespace Touches

variable {before between after : FileSystem} {targets parents : List Path}

theorem refl (files : FileSystem) : Touches files files targets parents :=
  ⟨rfl, rfl, fun _ => .kept rfl⟩

theorem mono (touches : Touches before after targets parents) {others above : List Path}
    (listed : targets ⊆ others) (listed' : parents ⊆ above) :
    Touches before after others above where
  workingDirectory := touches.workingDirectory
  clock := touches.clock
  leaves place := by
    cases touches.leaves place with
    | kept same => exact .kept same
    | written member leads vacant holds => exact .written (listed member) leads vacant holds
    | made member leads missing holds => exact .made (listed' member) leads missing holds

theorem grown (touches : Touches before after targets parents) : Extends before after := by
  intro place
  cases touches.leaves place with
  | kept same => exact .inl same.symm
  | written _ _ vacant holds => exact .inr ⟨vacant, fun target linked => by simp [holds] at linked⟩
  | made _ _ missing holds =>
      exact .inr ⟨vacant_of_none missing, fun target linked => by simp [holds] at linked⟩

/-- Every path that leads somewhere leads there afterwards. -/
theorem locate? (touches : Touches before after targets parents) {path : Path} {place : Location}
    (leads : before.locate? path = some place) : after.locate? path = some place :=
  locate?_of_extends touches.grown touches.workingDirectory.symm leads

/-- One change after another. -/
theorem trans (first : Touches before between targets parents)
    (second : Touches between after targets parents) : Touches before after targets parents where
  workingDirectory := second.workingDirectory.trans first.workingDirectory
  clock := second.clock.trans first.clock
  leaves place := by
    cases second.leaves place with
    | kept same =>
        cases first.leaves place with
        | kept same' => exact .kept (same.trans same')
        | written listed leads vacant holds =>
            exact .written listed (second.locate? leads) vacant (same.trans holds)
        | made listed leads missing holds =>
            exact .made listed (second.locate? leads) missing (same.trans holds)
    | written listed leads vacant holds =>
        cases first.leaves place with
        | kept same =>
            exact .written listed leads (fun entry found => vacant entry (same.trans found)) holds
        | written _ _ vacant' _ => exact .written listed leads vacant' holds
        | made _ _ _ holds' =>
            obtain ⟨held, impossible⟩ := vacant .directory holds'
            cases impossible
    | made listed leads missing holds =>
        cases first.leaves place with
        | kept same => exact .made listed leads (same.symm.trans missing) holds
        | written _ _ _ holds' => simp [holds'] at missing
        | made _ _ _ holds' => simp [holds'] at missing

end Touches

section Storing

variable {files made : FileSystem} {path : Path}

theorem touches_set {place : Location} {entry : FileEntry} {targets parents : List Path}
    (leaves : Leaves files (files.set place entry) targets parents place) :
    Touches files (files.set place entry) targets parents where
  workingDirectory := rfl
  clock := rfl
  leaves other := by
    by_cases here : other = place
    · exact here ▸ leaves
    · exact .kept (entryAt?_set_of_ne here)

theorem touches_add (added : files.add path .directory = .ok made) :
    Touches files made [] [path] := by
  obtain ⟨place, placed, changed⟩ := Outcome.bind_eq_ok.mp added
  split at changed
  · cases changed
  · rename_i missing
    cases changed
    have vacant := vacant_of_none missing
    have grown : Extends files (files.set place .directory) := extends_set vacant fun _ => by simp
    have there : (files.set place .directory).entryAt? place = some .directory :=
      entryAt?_set_self vacant.ne_nil
    have leads := locate?_of_place (place_of_extends grown rfl placed) there
    exact touches_set (.made List.mem_cons_self leads missing there)

theorem touches_makeEach : ∀ (paths : List Path) (files : FileSystem),
    Touches files (makeEach paths files).1 [] paths
  | [], files => .refl files
  | path :: above, files => by
      have here : [path] ⊆ path :: above := by simp
      rw [makeEach]
      split
      · exact .refl files
      · split
        · rename_i made added
          exact (touches_add added).mono (fun _ member => member) here
        · exact .refl files
        · have further := (touches_makeEach above files).mono (fun _ member => member)
            (List.subset_cons_self path above)
          split
          rename_i sofar possible earlier
          rw [earlier] at further
          split
          · exact further
          · split
            · rename_i made added
              exact further.trans ((touches_add added).mono (fun _ member => member) here)
            · exact further

theorem touches_makeParents (files : FileSystem) (path : Path) :
    Touches files (files.makeParents path).1 [path] path.parents := by
  rw [makeParents, Path.parents]
  cases path.parent? with
  | none => exact .refl files
  | some above =>
      dsimp only
      split
      · exact .refl files
      · exact (touches_makeEach above.ancestors files).mono (List.nil_subset _)
          fun _ member => member

theorem touches_write? {octets : List UInt8} (written : files.write? path octets = some made) :
    Touches files made [path] path.parents := by
  obtain ⟨place, located, vacant, rfl⟩ := exists_place_of_put? written
  exact touches_set (.written List.mem_cons_self (locate?_set vacant located) vacant
    (entryAt?_set_self vacant.ne_nil))

/-- **Storing a file changes what its path leads to and makes the directories missing above.** -/
theorem touches_store (files : FileSystem) (path : Path) (octets : List UInt8) :
    Touches files (files.store path octets).1 [path] path.parents := by
  have parents := touches_makeParents files path
  rw [store]
  split
  rename_i sofar possible made
  rw [made] at parents
  split
  · split
    · rename_i written done
      exact parents.trans (touches_write? done)
    · exact parents
  · exact parents

end Storing

end FileSystem

end DependencyAudit
