/-
# DependencyAudit.Proofs.Parents -- what lies in what

An entry is made in the directory that the parent of its path leads to, and looked for on the
way that the path itself describes.  The parent keeps the text of the path up to its last name
(`segments_of_fileName?`), and the system splits that text anew.  It gets the segments in front
of the name, apart from some that add nothing (`parent?_cases`), so the way to the parent is the
first part of the way to the path, and a directory is found where it was made
(`locate?_of_place`).

This holds of directories only: a link that is made is found where it leads.
-/
import DependencyAudit.Proofs.Outcome
import DependencyAudit.Proofs.Ways
import Mathlib.Data.List.DropRight
import Mathlib.Data.List.TakeWhile

namespace DependencyAudit

open Text

set_option autoImplicit false

namespace Path

/-! ## Segments and texts -/

/-- A segment has no slash. -/
def Plain (segment : String) : Prop :=
  '/' ∉ segment.toList

theorem plain_of_mem_segments {path : Path} {segment : String} (member : segment ∈ path.segments) :
    Plain segment := by
  obtain ⟨part, listed, rfl⟩ := List.mem_map.mp member
  rw [Plain, String.toList_ofList]
  exact notMem_of_mem_splitOn listed

/-- A path put together from segments has these segments. -/
theorem segments_intercalate {parts : List String} (filled : parts ≠ [])
    (plain : ∀ part ∈ parts, Plain part) : segments ⟨"/".intercalate parts⟩ = parts := by
  have slash : "/".toList = ['/'] := rfl
  rw [segments, String.toList_intercalate, slash, splitOn_intercalate (by simpa using filled)]
  · rw [List.map_map]
    conv_rhs => rw [← List.map_id parts]
    refine List.map_congr_left fun part _ => ?_
    simp
  · intro part member
    obtain ⟨segment, listed, rfl⟩ := List.mem_map.mp member
    exact plain segment listed

/-- A path with more than an empty segment has a text, and starts at the root exactly if its
first segment is empty. -/
theorem text_of_segments {path : Path} {first : String} {rest : List String}
    (parted : path.segments = first :: rest) (counts : first ≠ "" ∨ rest ≠ []) :
    path.text ≠ "" ∧ path.isAbsolute = decide (first = "") := by
  rw [segments] at parted
  cases shape : path.text.toList with
  | nil =>
      rw [shape, splitOn] at parted
      obtain ⟨rfl, rfl⟩ := List.cons.inj parted
      simp at counts
  | cons c cs =>
      refine ⟨fun empty => by simp [empty] at shape, ?_⟩
      rw [isAbsolute, shape, List.head?_cons]
      rw [shape, splitOn] at parted
      by_cases slash : c = '/'
      · rw [if_pos slash] at parted
        obtain ⟨rfl, -⟩ := List.cons.inj parted
        simp [slash]
      · -- The first segment begins with a letter that is no slash.
        rw [if_neg slash] at parted
        have lettered : ∃ letters, first = String.ofList (c :: letters) := by
          split at parted
          · exact ⟨[], (List.cons.inj parted).1.symm⟩
          · exact ⟨_, (List.cons.inj parted).1.symm⟩
        obtain ⟨letters, rfl⟩ := lettered
        simp [slash]

/-! ## Parents -/

theorem componentOf?_eq_normal {segment name : String}
    (given : componentOf? segment = some (.normal name)) :
    segment = name ∧ ¬ (name = "" ∨ name = ".") ∧ name ≠ ".." := by
  have same : segment = name := (segmentOf_of_componentOf? given).symm
  subst same
  unfold componentOf? at given
  split at given
  · cases given
  · rename_i solid
    split at given
    · cases given
    · rename_i forward
      exact ⟨rfl, solid, forward⟩

/-- What leads the components of a path is not their last, if that is another one. -/
theorem getLast?_of_lead {lead component : Component} {others : List Component}
    (differs : lead ≠ component) (last : (lead :: others).getLast? = some component) :
    others.getLast? = some component := by
  rw [List.getLast?_cons] at last
  cases ended : others.getLast? with
  | none => exact absurd (by simpa [ended] using last) differs
  | some other => simpa [ended] using last

/-- The name of a path is its last segment that adds something. -/
theorem segments_of_fileName? {path : Path} {name : String} (named : path.fileName? = some name) :
    ∃ front idles, path.segments = front ++ name :: idles ∧ (∀ idle ∈ idles, isIdle idle = true) ∧
      ¬ (name = "" ∨ name = ".") ∧ name ≠ ".." := by
  have last : (path.segments.filterMap componentOf?).getLast? = some (.normal name) := by
    unfold fileName? at named
    split at named
    · rename_i other last
      obtain rfl := Option.some.inj named
      rw [components] at last
      split at last
      · exact getLast?_of_lead (by simp) last
      · split at last
        · exact getLast?_of_lead (by simp) last
        · exact last
    · cases named
  rw [List.getLast?_filterMap, List.findSome?_eq_some_iff] at last
  obtain ⟨idles, segment, front, shape, given, idle⟩ := last
  obtain ⟨rfl, solid, forward⟩ := componentOf?_eq_normal given
  refine ⟨front.reverse, idles.reverse, ?_, fun other member => ?_, solid, forward⟩
  · rw [← List.reverse_reverse path.segments, shape]
    simp
  · rw [isIdle, idle other (List.mem_reverse.mp member)]
    rfl

section Parents

variable {path above : Path} {first name : String} {more behind : List String}

/-- What adds nothing behind a name is passed over. -/
theorem dropWhile_of_idle (idle : ∀ segment ∈ behind, isIdle segment = true)
    (active : isIdle name = false) (rest : List String) :
    (rest ++ name :: behind).reverse.dropWhile isIdle = name :: rest.reverse := by
  have passed : behind.reverse.dropWhile isIdle = [] :=
    List.dropWhile_eq_nil_iff.mpr (by simpa using idle)
  rw [List.reverse_append, List.reverse_cons, List.append_assoc, List.dropWhile_append, passed]
  simp [active]

/-- A path with nothing in front of its name lies in the working directory. -/
theorem parent?_of_first (parted : path.segments = name :: behind)
    (idle : ∀ segment ∈ behind, isIdle segment = true) (filled : name ≠ "") :
    path.parent? = some ⟨""⟩ := by
  have passed : behind.reverse.dropWhile isIdle = [] :=
    List.dropWhile_eq_nil_iff.mpr (by simpa using idle)
  rw [parent?, parted]
  simp [passed, filled]

/-- The parent keeps what is in front of the name up to the last segment that adds something. -/
theorem parent?_of_more (parted : path.segments = first :: (more ++ name :: behind))
    (idle : ∀ segment ∈ behind, isIdle segment = true) (active : isIdle name = false) :
    path.parent? = some (if first = "" ∧ more.rdropWhile isIdle = [] then ⟨"/"⟩
      else ⟨"/".intercalate (first :: more.rdropWhile isIdle)⟩) := by
  rw [parent?, parted]
  simp only [List.tail_cons, List.headD_cons, dropWhile_of_idle idle active]
  exact (apply_ite some _ _ _).symm

/-- What is kept has the segments that were kept, and starts where the path does. -/
theorem thins_kept (plain : ∀ segment ∈ first :: more, Plain segment)
    (kept : above = if first = "" ∧ more = [] then ⟨"/"⟩ else ⟨"/".intercalate (first :: more)⟩) :
    Thins above.segments (first :: more) ∧ above.text ≠ "" ∧
      above.isAbsolute = decide (first = "") := by
  by_cases rooted : first = "" ∧ more = []
  · rw [if_pos rooted] at kept
    subst kept
    obtain ⟨rfl, rfl⟩ := rooted
    exact ⟨.keep "" (.drop rfl .nil), by decide, rfl⟩
  · rw [if_neg rooted] at kept
    subst kept
    have parts : segments ⟨"/".intercalate (first :: more)⟩ = first :: more :=
      segments_intercalate (by simp) plain
    refine ⟨?_, text_of_segments parts (not_and_or.mp rooted)⟩
    rw [parts]
    exact thins_self _

/-- **The segments of a parent are those in front of the name**, apart from some that add nothing.
A path with nothing in front of its name lies in the working directory. -/
theorem parent?_cases (named : path.fileName? = some name) (lies : path.parent? = some above) :
    (∃ idles, path.segments = name :: idles ∧ (∀ idle ∈ idles, isIdle idle = true) ∧
      above.text = "" ∧ path.text ≠ "" ∧ path.isAbsolute = false) ∨
    ∃ front between idles, path.segments = front ++ (between ++ name :: idles) ∧
      (∀ idle ∈ between, isIdle idle = true) ∧ (∀ idle ∈ idles, isIdle idle = true) ∧
      Thins above.segments front ∧ above.text ≠ "" ∧ path.text ≠ "" ∧
      path.isAbsolute = above.isAbsolute := by
  obtain ⟨front, idles, parted, idle, solid, forward⟩ := segments_of_fileName? named
  cases front with
  | nil =>
      have filled : name ≠ "" := fun empty => solid (.inl empty)
      obtain ⟨text, start⟩ := text_of_segments parted (.inl filled)
      rw [parent?_of_first parted idle filled, Option.some.injEq] at lies
      exact .inl ⟨idles, parted, idle, lies ▸ rfl, text, by simpa [filled] using start⟩
  | cons first more =>
      have active : isIdle name = false := by
        rw [isIdle, componentOf?, if_neg solid, if_neg forward]
        rfl
      rw [List.cons_append] at parted
      rw [parent?_of_more parted idle active, Option.some.injEq] at lies
      have split : more.rdropWhile isIdle ++ more.rtakeWhile isIdle = more := by
        rw [List.rdropWhile, List.rtakeWhile, ← List.reverse_append,
          List.takeWhile_append_dropWhile, List.reverse_reverse]
      have plain : ∀ segment ∈ first :: more.rdropWhile isIdle, Plain segment := by
        intro segment member
        have kept : segment ∈ (first :: more.rdropWhile isIdle) ++ more.rtakeWhile isIdle :=
          List.mem_append_left _ member
        rw [List.cons_append, split] at kept
        refine @plain_of_mem_segments path segment ?_
        rw [parted]
        exact List.mem_append_left _ kept
      obtain ⟨thins, text', start'⟩ := thins_kept plain lies.symm
      obtain ⟨text, start⟩ := text_of_segments parted (.inr (by simp))
      refine .inr ⟨_, more.rtakeWhile isIdle, idles, ?_, fun segment member => ?_, idle, thins,
        text', text, start.trans start'.symm⟩
      · rw [parted, List.cons_append, ← List.append_assoc, split]
      · exact List.mem_rtakeWhile_imp member

end Parents

end Path

/-! ## Ways through a parent -/

namespace FileSystem

open DependencyAudit.Path

section Ways

variable {files others : FileSystem} {path : Path} {place : Location}

/-- Segments that add nothing lead from a directory to itself. -/
theorem followUntil_of_idle
    {onLink : Location → Path → List String → Except PathFault Location} {location : Location}
    {idles : List String} (idle : ∀ segment ∈ idles, isIdle segment = true) (rest : List String) :
    files.followUntil onLink location (idles ++ rest) = files.followUntil onLink location rest := by
  induction idles with
  | nil => rfl
  | cons segment idles more =>
      rw [List.cons_append, followUntil, if_pos (idle_of_isIdle (idle _ List.mem_cons_self)),
        more fun other member => idle other (List.mem_cons_of_mem segment member)]

/-- A way to a directory goes on from there, if that holds behind links. -/
theorem followUntil_append
    {onLink onOther : Location → Path → List String → Except PathFault Location}
    {found : Location} {more : List String} (inside : files.entryAt? place = some .directory)
    (goes : files.followUntil onOther place more = .ok found)
    (links : ∀ location target rest, onLink location target rest = .ok place →
      onOther location target (rest ++ more) = .ok found) {segments : List String} :
    ∀ {location : Location}, files.followUntil onLink location segments = .ok place →
      files.followUntil onOther location (segments ++ more) = .ok found := by
  induction segments with
  | nil =>
      intro location followed
      rw [followUntil, Except.ok.injEq] at followed
      rw [List.nil_append, followed]
      exact goes
  | cons segment rest way =>
      intro location followed
      rw [List.cons_append]
      by_cases idle : segment = "" ∨ segment = "."
      · rw [followUntil, if_pos idle] at followed ⊢
        exact way followed
      by_cases up : segment = ".."
      · rw [followUntil, if_neg idle, if_pos up] at followed ⊢
        exact way followed
      by_cases long : longestName < segment.utf8ByteSize
      · rw [followUntil, if_neg idle, if_neg up, if_pos long] at followed
        cases followed
      by_cases vacant : files.Vacant (location ++ [segment])
      · -- The way would end at a file or where nothing is, and not in a directory.
        obtain ⟨-, rfl⟩ := (followUntil_of_vacant idle up long vacant).mp followed
        obtain ⟨held, impossible⟩ := vacant .directory inside
        cases impossible
      · obtain ⟨entry, passage⟩ := not_forall.mp vacant
        obtain ⟨there, other⟩ := Classical.not_imp.mp passage
        rw [followUntil, if_neg idle, if_neg up, if_neg long, there] at followed ⊢
        cases entry with
        | directory => exact way followed
        | link target => exact links _ _ _ followed
        | file content => exact absurd ⟨content, rfl⟩ other

theorem follow_append {found : Location} {more : List String}
    (inside : files.entryAt? place = some .directory)
    (goes : ∀ onLink, files.followUntil onLink place more = .ok found) :
    ∀ (remaining : Nat) {location : Location} {segments : List String},
      files.follow remaining location segments = .ok place →
        files.follow remaining location (segments ++ more) = .ok found
  | 0, _, _, followed =>
      followUntil_append inside (goes _) (fun _ _ _ refused => by cases refused) followed
  | remaining + 1, _, _, followed => by
      refine followUntil_append inside (goes _) (fun location target rest led => ?_) followed
      rw [← List.append_assoc]
      exact follow_append inside goes remaining led

/-! ## Named entries -/

/-- A way is asked for its end. -/
theorem directory_of_way {way : Except PathFault Location} :
    (do
      let location ← way
      match files.entryAt? location with
      | some .directory => return location
      | some _ => .error .refused
      | none => .error .missing) = Except.ok place ↔
      way = .ok place ∧ files.entryAt? place = some .directory := by
  rw [Outcome.bind_eq_ok]
  constructor
  · rintro ⟨location, led, checked⟩
    split at checked
    · rename_i inside
      cases checked
      exact ⟨led, inside⟩
    · cases checked
    · cases checked
  · rintro ⟨led, inside⟩
    exact ⟨place, led, by rw [inside]; rfl⟩

theorem directoryAt_eq_ok_iff :
    files.directoryAt path = .ok place ↔
      (if path.text = "" then files.workingDirectory = place else files.locate? path = some place) ∧
        files.entryAt? place = some .directory := by
  rw [directoryAt]
  split
  · exact directory_of_way.trans (by rw [Except.ok.injEq])
  · exact directory_of_way.trans (by rw [locate?_eq_some_iff])

/-- A path names an entry in the directory that its parent leads to. -/
theorem place_eq_ok_iff :
    files.place path = .ok place ↔ path.isAdmissible = true ∧ ∃ name above inside,
      path.fileName? = some name ∧ path.parent? = some above ∧
        files.directoryAt above = .ok inside ∧ ¬ longestName < name.utf8ByteSize ∧
        inside ++ [name] = place := by
  rw [FileSystem.place]
  cases admissible : path.isAdmissible with
  | false => simp
  | true =>
      cases named : path.fileName? with
      | none => simp [Outcome.bind_eq_ok]
      | some name =>
          cases lies : path.parent? with
          | none => simp [Outcome.bind_eq_ok]
          | some above =>
              have ends : ∀ inside, (if longestName < name.utf8ByteSize then
                  Except.error PathFault.refused else .ok (inside ++ [name])) = Except.ok place ↔
                    ¬ longestName < name.utf8ByteSize ∧ inside ++ [name] = place := by
                intro inside
                split <;> simp [*]
              simp [Outcome.bind_eq_ok, pure, Except.pure, ends]

theorem destination_eq_ok_iff :
    files.destination path = .ok place ↔ path.text ≠ "" ∧ path.isAdmissible = true ∧
      files.follow linkLimit (files.origin path) path.segments = .ok place := by
  rw [destination]
  split
  · simp [*]
  · cases admissible : path.isAdmissible <;> simp [*]

/-- A name in a directory is the end of its way, whatever adds nothing around it. -/
theorem followUntil_of_name
    {onLink : Location → Path → List String → Except PathFault Location} {name : String}
    {between behind : List String} (around : ∀ segment ∈ between, isIdle segment = true)
    (idle : ∀ segment ∈ behind, isIdle segment = true) (solid : ¬ (name = "" ∨ name = "."))
    (forward : name ≠ "..") (short : ¬ longestName < name.utf8ByteSize)
    (inside : files.entryAt? (place ++ [name]) = some .directory) :
    files.followUntil onLink place (between ++ name :: behind) = .ok (place ++ [name]) := by
  rw [followUntil_of_idle around, followUntil, if_neg solid, if_neg forward, if_neg short, inside]
  have ended := @followUntil_of_idle files onLink (place ++ [name]) behind idle []
  rw [List.append_nil] at ended
  exact ended

/-- The way to a path goes through the directory that the path lies in. -/
theorem exists_way_of_parent? {above : Path} {name : String} {inside : Location}
    (named : path.fileName? = some name) (lies : path.parent? = some above)
    (way : files.directoryAt above = .ok inside) :
    path.text ≠ "" ∧ ∃ front between behind, path.segments = front ++ (between ++ name :: behind) ∧
      (∀ segment ∈ between, isIdle segment = true) ∧ (∀ segment ∈ behind, isIdle segment = true) ∧
      files.follow linkLimit (files.origin path) front = .ok inside := by
  obtain ⟨led, -⟩ := directoryAt_eq_ok_iff.mp way
  rcases parent?_cases named lies with ⟨behind, parted, idle, text, filled, start⟩ |
    ⟨front, between, behind, parted, idle, idle', thins, text, filled, start⟩
  · rw [if_pos text] at led
    refine ⟨filled, [], [], behind, parted, by simp, idle, ?_⟩
    rw [origin, start, led]
    rfl
  · rw [if_neg text, locate?_eq_some_iff, destination_eq_ok_iff] at led
    refine ⟨filled, front, between, behind, parted, idle, idle', ?_⟩
    rw [origin, start]
    exact follow_of_thins (.refl files) linkLimit thins led.2.2

/-- **A directory is found where its path names it.** -/
theorem locate?_of_place (placed : files.place path = .ok place)
    (inside : files.entryAt? place = some .directory) : files.locate? path = some place := by
  obtain ⟨admissible, name, above, within, named, lies, way, short, rfl⟩ :=
    place_eq_ok_iff.mp placed
  obtain ⟨-, around⟩ := directoryAt_eq_ok_iff.mp way
  obtain ⟨_, _, _, _, solid, forward⟩ := segments_of_fileName? named
  obtain ⟨filled, front, between, behind, parted, idle, idle', entered⟩ :=
    exists_way_of_parent? named lies way
  rw [locate?_eq_some_iff, destination_eq_ok_iff, parted]
  refine ⟨filled, admissible, follow_append around (fun onLink => ?_) linkLimit entered⟩
  exact followUntil_of_name idle idle' solid forward short inside

end Ways

section Growing

variable {files others : FileSystem} {path : Path} {place : Location}

theorem Extends.entryAt?_directory (grown : Extends files others)
    (inside : files.entryAt? place = some .directory) :
    others.entryAt? place = some .directory := by
  rcases grown place with same | ⟨vacant, -⟩
  · rw [← same, inside]
  · obtain ⟨held, impossible⟩ := vacant .directory inside
    cases impossible

/-- A path names the same entry when something has come to be elsewhere or there. -/
theorem place_of_extends (grown : Extends files others)
    (stays : files.workingDirectory = others.workingDirectory)
    (placed : files.place path = .ok place) : others.place path = .ok place := by
  obtain ⟨admissible, name, above, within, named, lies, way, short, rfl⟩ :=
    place_eq_ok_iff.mp placed
  obtain ⟨led, around⟩ := directoryAt_eq_ok_iff.mp way
  refine place_eq_ok_iff.mpr ⟨admissible, name, above, within, named, lies, ?_, short, rfl⟩
  refine directoryAt_eq_ok_iff.mpr ⟨?_, grown.entryAt?_directory around⟩
  split
  · rename_i empty
    rw [if_pos empty] at led
    rw [← stays, led]
  · rename_i text
    rw [if_neg text] at led
    exact locate?_of_extends grown stays led

end Growing

end FileSystem

end DependencyAudit
