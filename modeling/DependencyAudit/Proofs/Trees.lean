/-
# DependencyAudit.Proofs.Trees -- walks through trees of files

Below a directory without links there is a tree: whatever is there lies in a directory of the
tree (`IsTree`).  A walk from a path that leads to the tree, whose directories all have paths
that the system takes (`Enters`), comes upon every file of the tree once, depth first and with
the names of each directory in the order of their octets, and upon no fault (`walk_of_tree`).

The order of a walk is an order of relative paths, name by name (`DepthFirst`): of two files the
first directory in which their ways part decides.  The budget of a walk covers any tree, since
the directories on the way to a file are entries of their own (`depth_le`).
-/
import DependencyAudit.FileSystem.Walk
import DependencyAudit.Proofs.Parents
import DependencyAudit.Proofs.TextOctets
import Mathlib.Data.List.Nodup
import Mathlib.Data.List.Perm.Subperm
import Mathlib.Tactic.Linarith

namespace DependencyAudit

open Text

set_option autoImplicit false

/-! ## Paths below a path -/

namespace Path

/-- A path below another one, name by name. -/
def below (path : Path) (names : List String) : Path :=
  names.foldl (fun sofar name => sofar.join ⟨name⟩) path

theorem below_concat (path : Path) (names : List String) (name : String) :
    path.below (names ++ [name]) = (path.below names).join ⟨name⟩ := by
  rw [below, List.foldl_append, List.foldl_cons, List.foldl_nil, below]

/-- What a path is joined with is its last segment, and the segments in front of it lead where
the path led. -/
theorem segments_join {path : Path} {name : String} (text : path.text ≠ "") (plain : Plain name) :
    (path.join ⟨name⟩).text ≠ "" ∧ (path.join ⟨name⟩).isAbsolute = path.isAbsolute ∧
      ∃ front, (path.join ⟨name⟩).segments = front ++ [name] ∧ Thins path.segments front := by
  have relative : ¬ (isAbsolute ⟨name⟩ ∨ path.text = "") := by
    rw [not_or, isAbsolute, decide_eq_true_eq]
    exact ⟨fun head => plain (List.mem_of_head? head), text⟩
  obtain ⟨c, cs, shape⟩ : ∃ c cs, path.text.toList = c :: cs :=
    List.exists_cons_of_ne_nil (by simpa using text)
  rw [join, if_neg relative]
  split
  · rename_i slashed
    obtain ⟨front, whole⟩ := List.getLast?_eq_some_iff.mp slashed
    refine ⟨by simp [← String.toList_inj, shape], by simp [isAbsolute, shape], ?_⟩
    refine ⟨(splitOn '/' front).map String.ofList, ?_, ?_⟩
    · rw [segments, String.toList_append, whole, List.append_assoc, List.singleton_append,
        splitOn_append, splitOn_of_notMem plain]
      simp
    · have ended : path.segments = (splitOn '/' front).map String.ofList ++ [""] := by
        rw [segments, whole, splitOn_append]
        simp [splitOn]
      have thins := (Thins.drop (by decide) .nil : Thins [""] []).append
        ((splitOn '/' front).map String.ofList)
      rw [List.append_nil] at thins
      rw [ended]
      exact thins
  · refine ⟨by simp [← String.toList_inj, shape], by simp [isAbsolute, shape], ?_⟩
    refine ⟨path.segments, ?_, thins_self _⟩
    have slash : "/".toList = ['/'] := rfl
    rw [segments, String.toList_append, String.toList_append, slash, List.append_assoc,
      List.singleton_append, splitOn_append, splitOn_of_notMem plain]
    simp [segments]

end Path

namespace FileSystem

open DependencyAudit.Path

/-! ## Trees -/

/-- A name that an entry of a directory can have. -/
structure Ordinary (name : String) : Prop where
  solid : ¬ (name = "" ∨ name = ".")
  forward : name ≠ ".."
  plain : Plain name
  short : ¬ longestName < name.utf8ByteSize

instance : DecidablePred Ordinary := fun name =>
  decidable_of_iff ((¬ (name = "" ∨ name = ".")) ∧ name ≠ ".." ∧ '/' ∉ name.toList ∧
    ¬ longestName < name.utf8ByteSize)
    ⟨fun ⟨solid, forward, plain, short⟩ => ⟨solid, forward, plain, short⟩,
      fun ordinary => ⟨ordinary.solid, ordinary.forward, ordinary.plain, ordinary.short⟩⟩

/-- At a location there is a tree of files and directories, without links. -/
structure IsTree (files : FileSystem) (root : Location) : Prop where
  inside : files.entryAt? root = some .directory
  unlinked : ∀ names target, files.entryAt? (root ++ names) ≠ some (.link target)
  /-- What is there lies in a directory. -/
  within : ∀ names name, (files.entryAt? (root ++ (names ++ [name]))).isSome = true →
    files.entryAt? (root ++ names) = some .directory
  ordinary : ∀ names name, (files.entryAt? (root ++ (names ++ [name]))).isSome = true →
    Ordinary name

/-- A path leads to a location, and the system takes the paths of all directories below it. -/
structure Enters (files : FileSystem) (path : Path) (root : Location) : Prop where
  leads : files.locate? path = some root
  admissible : ∀ names, files.entryAt? (root ++ names) = some .directory →
    (path.below names).isAdmissible = true

/-- A file of a tree, by the names on the way to it. -/
def HasFile (files : FileSystem) (root : Location) (names : List String) : Prop :=
  ∃ content, files.entryAt? (root ++ names) = some (.file content)

section Places

variable {files : FileSystem} {path : Path} {root place : Location} {names more : List String}

theorem HasFile.isSome (held : files.HasFile root names) :
    (files.entryAt? (root ++ names)).isSome = true := by
  obtain ⟨content, there⟩ := held
  rw [there]
  rfl

/-- The way to what is in a tree leads through directories. -/
theorem IsTree.directory_above (tree : files.IsTree root) (proper : more ≠ [])
    (there : (files.entryAt? (root ++ (names ++ more))).isSome = true) :
    files.entryAt? (root ++ names) = some .directory := by
  induction more using List.reverseRecOn with
  | nil => exact absurd rfl proper
  | append_singleton more name above =>
      rw [← List.append_assoc names more [name]] at there
      have inside := tree.within _ _ there
      cases more with
      | nil => rwa [List.append_nil] at inside
      | cons first more => exact above (by simp) (by rw [inside]; rfl)

theorem IsTree.isSome_above (tree : files.IsTree root)
    (there : (files.entryAt? (root ++ (names ++ more))).isSome = true) :
    (files.entryAt? (root ++ names)).isSome = true := by
  by_cases last : more = []
  · rwa [last, List.append_nil] at there
  · rw [tree.directory_above last there]
    rfl

/-- A directory inside of another one is found by its own path. -/
theorem locate?_join {name : String} (leads : files.locate? path = some place)
    (inside : files.entryAt? place = some .directory) (ordinary : Ordinary name)
    (admissible : (path.join ⟨name⟩).isAdmissible = true)
    (entered : files.entryAt? (place ++ [name]) = some .directory) :
    files.locate? (path.join ⟨name⟩) = some (place ++ [name]) := by
  rw [locate?_eq_some_iff, destination_eq_ok_iff] at leads ⊢
  obtain ⟨text, _, led⟩ := leads
  obtain ⟨filled, start, front, parted, thins⟩ := segments_join text ordinary.plain
  refine ⟨filled, admissible, ?_⟩
  have way := follow_of_thins (.refl files) linkLimit thins led
  rw [origin, start, parted]
  refine follow_append inside (fun onLink => ?_) linkLimit way
  exact followUntil_of_name (List.forall_mem_nil _) (List.forall_mem_nil _) ordinary.solid
    ordinary.forward ordinary.short entered

/-- The directories of a tree are found by their paths below the path of the tree. -/
theorem locate?_below (tree : files.IsTree root) (enters : files.Enters path root)
    (entered : files.entryAt? (root ++ names) = some .directory) :
    files.locate? (path.below names) = some (root ++ names) := by
  induction names using List.reverseRecOn with
  | nil => rw [List.append_nil]; exact enters.leads
  | append_singleton names name located =>
      have there : (files.entryAt? (root ++ (names ++ [name]))).isSome = true := by
        rw [entered]
        rfl
      have inside := tree.within _ _ there
      have admissible := enters.admissible _ entered
      rw [below_concat] at admissible ⊢
      rw [← List.append_assoc] at entered ⊢
      exact locate?_join (located inside) inside (tree.ordinary _ _ there) admissible entered

/-! ## Directories -/

theorem mem_of_entryAt? {entry : FileEntry} (below : place ≠ [])
    (there : files.entryAt? place = some entry) : (place, entry) ∈ files.entries := by
  rw [entryAt?, if_neg below, List.lookup_eq_some_iff] at there
  obtain ⟨before, after, shape, _⟩ := there
  rw [shape]
  exact List.mem_append_right before List.mem_cons_self

theorem mem_namesAt {name : String} :
    name ∈ files.namesAt place ↔ (files.entryAt? (place ++ [name])).isSome = true := by
  rw [namesAt, NameSet.mem_ofList, entryAt?, if_neg (by simp), List.lookup_isSome_iff]
  simp only [List.mem_filterMap, beq_iff_eq, Prod.exists]
  constructor
  · rintro ⟨other, entry, listed, named⟩
    split at named
    · rename_i around
      refine ⟨other, entry, listed, ?_⟩
      rw [← around]
      exact List.dropLast_append_getLast? _ named
    · cases named
  · rintro ⟨other, entry, listed, rfl⟩
    exact ⟨_, entry, listed, by simp⟩

/-- What is in a tree lies no deeper than there are entries. -/
theorem depth_le (tree : files.IsTree root)
    (there : (files.entryAt? (root ++ names)).isSome = true) :
    names.length ≤ files.entries.length := by
  let ways := (List.range names.length).map fun i => root ++ names.take (i + 1)
  have listed : ∀ way ∈ ways, way ∈ files.entries.map Prod.fst := by
    intro way member
    obtain ⟨i, less, rfl⟩ := List.mem_map.mp member
    rw [List.mem_range] at less
    rw [← List.take_append_drop (i + 1) names] at there
    obtain ⟨entry, above⟩ := Option.isSome_iff_exists.mp (tree.isSome_above there)
    refine List.mem_map_of_mem (mem_of_entryAt? (fun empty => ?_) above)
    have short := congrArg List.length (List.append_eq_nil_iff.mp empty).2
    rw [List.length_take, List.length_nil] at short
    omega
  -- The directories on the way are of different depths.
  have distinct : ways.Nodup := by
    refine List.Nodup.map_on (fun i first j second same => ?_) List.nodup_range
    have long := congrArg List.length (List.append_cancel_left same)
    rw [List.mem_range] at first second
    rw [List.length_take, List.length_take] at long
    omega
  have most := (distinct.subperm listed).length_le
  rwa [List.length_map, List.length_range, List.length_map] at most

/-- A tree can be told from the entries below its root. -/
theorem IsTree.ofEntries (inside : files.entryAt? root = some .directory)
    (unlinked : ∀ listed ∈ files.entries, root <+: listed.1 → ∀ target, listed.2 ≠ .link target)
    (each : ∀ listed ∈ files.entries, root <+: listed.1 → listed.1 ≠ root →
      files.entryAt? listed.1.dropLast = some .directory ∧
        ∀ name ∈ listed.1.getLast?, Ordinary name) : files.IsTree root := by
  have below : ∀ names name, (files.entryAt? (root ++ (names ++ [name]))).isSome = true →
      files.entryAt? (root ++ names) = some .directory ∧ Ordinary name := by
    intro names name there
    obtain ⟨entry, held⟩ := Option.isSome_iff_exists.mp there
    have proper : root ++ (names ++ [name]) ≠ root := by simp
    obtain ⟨above, ordinary⟩ := each _ (mem_of_entryAt? (by simp) held) (by simp) proper
    rw [← List.append_assoc] at above ordinary
    exact ⟨by simpa using above, ordinary name (by simp)⟩
  refine ⟨inside, fun names target linked => ?_, fun names name there => (below names name there).1,
    fun names name there => (below names name there).2⟩
  by_cases root_itself : names = []
  · rw [root_itself, List.append_nil, inside] at linked
    cases linked
  · have listed := mem_of_entryAt? (by simp [root_itself]) linked
    exact unlinked _ listed (by simp) target rfl

end Places

/-! ## Walks -/

/-- A name before another one, by their octets. -/
def NameBefore (name other : String) : Prop :=
  Utf8.Before (Utf8.encodeString name) (Utf8.encodeString other)

/-- The order of relative paths that a walk keeps: depth first, name by name. -/
def DepthFirst (names others : List String) : Prop :=
  List.Lex NameBefore names others

theorem NameBefore.irrefl (name : String) : ¬ NameBefore name name :=
  List.lex_irrefl (fun octet => UInt8.lt_irrefl octet) _

theorem DepthFirst.irrefl (names : List String) : ¬ DepthFirst names names :=
  List.lex_irrefl NameBefore.irrefl _

theorem depthFirst_of_lt {name other : String} (less : name < other)
    (names behind behind' : List String) :
    DepthFirst (names ++ name :: behind) (names ++ other :: behind') :=
  List.Lex.append_left NameBefore (.rel (Utf8.before_encodeString less)) names

/-- The files that some names of a directory lead to, in the order of a walk. -/
structure Meets (files : FileSystem) (root : Location) (names choices : List String)
    (found : List WalkedFile) : Prop where
  ordered : (found.map WalkedFile.relative).Pairwise DepthFirst
  exact : ∀ others, (∃ file ∈ found, file.relative = others) ↔
    ∃ name ∈ choices, ∃ more, others = names ++ name :: more ∧ files.HasFile root others

section Walking

variable {files : FileSystem} {path : Path} {root : Location} {names choices : List String}
  {found : List WalkedFile}

theorem nodup_of_depthFirst (ordered : (found.map WalkedFile.relative).Pairwise DepthFirst) :
    (found.map WalkedFile.relative).Nodup := by
  refine ordered.imp fun before same => ?_
  subst same
  exact DepthFirst.irrefl _ before

/-- What is met under several names is met under the first, and then under the others. -/
theorem Meets.cons {name : String} {later : List WalkedFile}
    (first : Meets files root names [name] found) (rest : Meets files root names choices later)
    (least : ∀ other ∈ choices, name < other) :
    Meets files root names (name :: choices) (found ++ later) where
  ordered := by
    rw [List.map_append, List.pairwise_append]
    refine ⟨first.ordered, rest.ordered, fun one member other member' => ?_⟩
    obtain ⟨_, listed, behind, rfl, _⟩ := (first.exact one).mp (by simpa using member)
    obtain ⟨choice, listed', behind', rfl, _⟩ := (rest.exact other).mp (by simpa using member')
    rw [List.mem_singleton.mp listed]
    exact depthFirst_of_lt (least choice listed') names behind behind'
  exact others := by
    simp only [List.mem_append, or_and_right, exists_or, first.exact, rest.exact, List.mem_cons,
      List.not_mem_nil, or_false]

/-- A file is met under its name. -/
theorem Meets.file {name : String} {content : FileContent} {visit : Visit}
    (tree : files.IsTree root)
    (there : files.entryAt? (root ++ (names ++ [name])) = some (.file content))
    (ways : visit.relative = names) :
    Meets files root names [name] [visit.found name content] where
  ordered := by simp
  exact others := by
    simp only [List.mem_singleton, exists_eq_left, Visit.found, ways]
    constructor
    · rintro rfl
      exact ⟨[], rfl, content, there⟩
    · rintro ⟨more, rfl, held⟩
      -- Nothing lies behind a file.
      by_cases last : more = []
      · rw [last]
      · have behind : (files.entryAt? (root ++ ((names ++ [name]) ++ more))).isSome = true := by
          simpa using held.isSome
        have directory := tree.directory_above last behind
        rw [there] at directory
        cases directory

/-- What is met in a directory is met under its name. -/
theorem Meets.directory {name : String} (tree : files.IsTree root)
    (inside : files.entryAt? (root ++ (names ++ [name])) = some .directory)
    (meets : Meets files root (names ++ [name])
      (files.namesAt (root ++ (names ++ [name]))).toList found) :
    Meets files root names [name] found where
  ordered := meets.ordered
  exact others := by
    rw [meets.exact]
    constructor
    · rintro ⟨choice, -, more, rfl, held⟩
      exact ⟨name, List.mem_singleton_self name, choice :: more, by simp, held⟩
    · rintro ⟨other, listed, more, rfl, held⟩
      obtain rfl := List.mem_singleton.mp listed
      cases more with
      | nil =>
          obtain ⟨content, there⟩ := held
          rw [inside] at there
          cases there
      | cons choice more =>
          refine ⟨choice, ?_, more, by simp, held⟩
          have behind : (files.entryAt? (root ++
              ((names ++ [other] ++ [choice]) ++ more))).isSome = true := by
            simpa using held.isSome
          rw [NameSet.mem_toList, mem_namesAt, List.append_assoc]
          exact tree.isSome_above behind

/-- Name after name, what is met under each is met under all. -/
theorem Meets.ofEach {step : String → List (Except Path WalkedFile)}
    (ascending : choices.Pairwise (· < ·))
    (each : ∀ name ∈ choices, ∃ found, step name = found.map Except.ok ∧
      Meets files root names [name] found) :
    ∃ found, choices.flatMap step = found.map Except.ok ∧
      Meets files root names choices found := by
  induction choices with
  | nil => exact ⟨[], rfl, by simp, by simp⟩
  | cons name choices later =>
      obtain ⟨least, ascending⟩ := List.pairwise_cons.mp ascending
      obtain ⟨found, first, meets⟩ := each name List.mem_cons_self
      obtain ⟨others, rest, meets'⟩ :=
        later ascending fun other member => each other (List.mem_cons_of_mem name member)
      refine ⟨found ++ others, ?_, meets.cons meets' least⟩
      rw [List.flatMap_cons, first, rest, List.map_append]

/-- A walk is at a directory below a location, and came there by the names on the way. -/
structure Stands (path : Path) (root : Location) (names : List String) (visit : Visit) : Prop where
  location : visit.location = root ++ names
  path : visit.path = path.below names
  relative : visit.relative = names

theorem Stands.enter {visit : Visit} (stands : Stands path root names visit) (name : String) :
    Stands path root (names ++ [name]) (visit.enter name (visit.location ++ [name])) where
  location := by rw [Visit.enter, stands.location, List.append_assoc]
  path := by rw [Visit.enter, Visit.pathOf, stands.path, below_concat]
  relative := by rw [Visit.enter, stands.relative]

/-- A walk with budget enough meets the files below the directory of a tree that it is at. -/
theorem walkFrom_of_tree (tree : files.IsTree root) (enters : files.Enters path root)
    (budget : Nat) (visit : Visit) (stands : Stands path root names visit)
    (inside : files.entryAt? (root ++ names) = some .directory)
    (enough : files.entries.length < names.length + budget) :
    ∃ found, files.walkFrom budget visit = found.map Except.ok ∧
      Meets files root names (files.namesAt (root ++ names)).toList found := by
  induction budget generalizing names visit with
  | zero =>
      have there : (files.entryAt? (root ++ names)).isSome = true := by
        rw [inside]
        rfl
      have depth := depth_le tree there
      omega
  | succ budget deeper =>
      rw [walkFrom, stands.location]
      refine Meets.ofEach (files.namesAt (root ++ names)).ascending fun name listed => ?_
      have there := mem_namesAt.mp listed
      have shape : root ++ names ++ [name] = root ++ (names ++ [name]) := by
        rw [List.append_assoc]
      have way : visit.pathOf name = path.below (names ++ [name]) := by
        rw [Visit.pathOf, stands.path, below_concat]
      simp only [shape, way] at there ⊢
      cases entry : files.entryAt? (root ++ (names ++ [name])) with
      | none => simp [entry] at there
      | some entry' =>
          cases entry' with
          | file content =>
              exact ⟨[visit.found name content], rfl, Meets.file tree entry stands.relative⟩
          | link target => exact absurd entry (tree.unlinked _ target)
          | directory =>
              have enter := stands.enter name
              rw [stands.location, shape] at enter
              obtain ⟨found, walked, meets⟩ := deeper _ enter entry
                (by rw [List.length_append, List.length_singleton]; omega)
              refine ⟨found, ?_, Meets.directory tree entry meets⟩
              simp only [locate?_below tree enters entry, Option.isSome_some, if_true]
              exact walked

/-- **A walk through a tree comes upon each of its files once**, depth first, the names of each
directory in the order of their octets, and upon no fault. -/
theorem walk_of_tree (tree : files.IsTree root) (enters : files.Enters path root) :
    ∃ found : List WalkedFile, files.walk path = found.map Except.ok ∧
      (found.map WalkedFile.relative).Pairwise DepthFirst ∧
      ∀ names, (∃ file ∈ found, file.relative = names) ↔ files.HasFile root names := by
  have stands : Stands path root [] ⟨root, path, [], []⟩ := ⟨by simp, rfl, rfl⟩
  have enough : files.entries.length < ([] : List String).length + files.budget := by
    rw [budget, List.length_nil]
    nlinarith
  obtain ⟨found, walked, meets⟩ :=
    walkFrom_of_tree tree enters files.budget _ stands (by simpa using tree.inside) enough
  refine ⟨found, ?_, meets.ordered, fun names => ?_⟩
  · rw [walk, enters.leads]
    exact walked
  · rw [meets.exact]
    constructor
    · rintro ⟨_, _, _, _, held⟩
      exact held
    · intro held
      cases names with
      | nil =>
          obtain ⟨content, there⟩ := held
          rw [List.append_nil, tree.inside] at there
          cases there
      | cons name more =>
          have behind : (files.entryAt? (root ++ ([name] ++ more))).isSome = true := held.isSome
          refine ⟨name, ?_, more, rfl, held⟩
          rw [NameSet.mem_toList, mem_namesAt, List.append_assoc]
          exact tree.isSome_above behind

end Walking

end FileSystem

end DependencyAudit
