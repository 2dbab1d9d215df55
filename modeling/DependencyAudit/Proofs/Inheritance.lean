/-
# DependencyAudit.Proofs.Inheritance -- what configurations inherit

A name is reachable from some names if it is one of them, or if a configuration of a
reachable name extends it.  Of several configurations of one name the first counts, and
the extensions may lead in circles.

`declared` walks along these extensions with a stack and remembers where it has been.
The invariant of the walk is `Explored`: the names visited in the end hold what stood on
the stack, all of them are configurations, and they are closed under extension.  So the
walk ends with exactly the reachable names (`mem_declared_iff`), and it fails exactly
when one of them is unknown (`declared_eq_ok_iff`), which its error names
(`declared_eq_error`).
-/
import DependencyAudit.Manifest.Basic
import DependencyAudit.Proofs.Outcome

namespace DependencyAudit

set_option autoImplicit false

/-- A dependency that some texts spell, by the name of reports. -/
def Dependency.Spelled (spellings : List String) (dependency : String) : Prop :=
  ∃ spelling ∈ spellings, normalize spelling = dependency

theorem Dependency.spelled_append {spellings more : List String} {dependency : String} :
    Spelled (spellings ++ more) dependency ↔
      Spelled spellings dependency ∨ Spelled more dependency := by
  simp only [Spelled, List.mem_append, or_and_right, exists_or]

theorem Configuration.mem_declarations {configuration : Configuration} {dependency : String} :
    dependency ∈ configuration.declarations ↔
      Dependency.Spelled configuration.dependencies dependency := by
  simp [declarations, Dependency.Spelled]

namespace Manifest

/-! ## Reachable names -/

/-- The names that some names lead to through extensions. -/
inductive Reachable (manifest : Manifest) (names : List String) : String → Prop where
  | listed {name : String} (member : name ∈ names) : Reachable manifest names name
  | extended {name parent : String} {found : Configuration}
      (reached : Reachable manifest names name)
      (present : manifest.configuration? name = some found)
      (extends_ : parent ∈ found.extendsFrom) : Reachable manifest names parent

/-- A dependency that a configuration of some reachable name declares. -/
def Inherits (manifest : Manifest) (names : List String) (dependency : String) : Prop :=
  ∃ name found, manifest.Reachable names name ∧ manifest.configuration? name = some found ∧
    Dependency.Spelled found.dependencies dependency

/-- A dependency that a configuration of one of the names declares itself. -/
def Lists (manifest : Manifest) (names : List String) (dependency : String) : Prop :=
  ∃ name ∈ names, ∃ found, manifest.configuration? name = some found ∧
    Dependency.Spelled found.dependencies dependency

theorem Reachable.trans {manifest : Manifest} {names more : List String} {name : String}
    (reached : manifest.Reachable more name)
    (within : ∀ other ∈ more, manifest.Reachable names other) : manifest.Reachable names name := by
  induction reached with
  | listed member => exact within _ member
  | extended _ present extends_ reached => exact reached.extended present extends_

theorem Reachable.mono {manifest : Manifest} {names more : List String} {name : String}
    (reached : manifest.Reachable names name) (within : ∀ other ∈ names, other ∈ more) :
    manifest.Reachable more name :=
  reached.trans fun other member => .listed (within other member)

/-- A dependency listed on one of the names is inherited as well. -/
theorem Lists.inherits {manifest : Manifest} {names : List String} {dependency : String}
    (lists : manifest.Lists names dependency) : manifest.Inherits names dependency := by
  obtain ⟨name, member, found, present, spelled⟩ := lists
  exact ⟨name, found, .listed member, present, spelled⟩

/-- What a configuration on the stack extends is reached from the stack. -/
theorem reachable_of_extension {manifest : Manifest} {stack : List String} {name other : String}
    {found : Configuration} (present : manifest.configuration? name = some found)
    (reached : manifest.Reachable (found.extendsFrom.reverse ++ stack) other) :
    manifest.Reachable (name :: stack) other := by
  refine reached.trans fun next member => ?_
  rcases List.mem_append.mp member with inherited | waiting
  · exact .extended (.listed List.mem_cons_self) present (List.mem_reverse.mp inherited)
  · exact .listed (List.mem_cons_of_mem name waiting)

/-! ## The walk -/

/-- What is known once a walk from some visited names over a stack has ended at the names
in `final`. -/
structure Explored (manifest : Manifest) (visited stack final : List String) : Prop where
  keeps : ∀ name ∈ visited, name ∈ final
  covers : ∀ name ∈ stack, name ∈ final
  closed : ∀ name ∈ final, name ∉ visited → ∃ found, manifest.configuration? name = some found ∧
    ∀ parent ∈ found.extendsFrom, parent ∈ final
  reached : ∀ name ∈ final, name ∉ visited → manifest.Reachable stack name

theorem Explored.nil (manifest : Manifest) (visited : List String) :
    manifest.Explored visited [] visited where
  keeps _ member := member
  covers _ member := absurd member List.not_mem_nil
  closed _ member fresh := absurd member fresh
  reached _ member fresh := absurd member fresh

/-- A name that was visited before adds nothing. -/
theorem Explored.skip {manifest : Manifest} {visited stack final : List String} {name : String}
    (seen : name ∈ visited) (explored : manifest.Explored visited stack final) :
    manifest.Explored visited (name :: stack) final where
  keeps := explored.keeps
  covers other member := by
    rcases List.mem_cons.mp member with rfl | waiting
    · exact explored.keeps other seen
    · exact explored.covers other waiting
  closed := explored.closed
  reached other member fresh :=
    (explored.reached other member fresh).mono fun _ => List.mem_cons_of_mem name

/-- A visit to a configuration puts what it extends on the stack. -/
theorem Explored.visit {manifest : Manifest} {visited stack final : List String} {name : String}
    {found : Configuration} (present : manifest.configuration? name = some found)
    (explored :
      manifest.Explored (name :: visited) (found.extendsFrom.reverse ++ stack) final) :
    manifest.Explored visited (name :: stack) final where
  keeps other member := explored.keeps other (List.mem_cons_of_mem name member)
  covers other member := by
    rcases List.mem_cons.mp member with rfl | waiting
    · exact explored.keeps other List.mem_cons_self
    · exact explored.covers other (List.mem_append_right _ waiting)
  closed other member fresh := by
    by_cases same : other = name
    · subst same
      refine ⟨found, present, fun parent extends_ => explored.covers parent ?_⟩
      exact List.mem_append_left _ (List.mem_reverse.mpr extends_)
    · exact explored.closed other member (by simp [same, fresh])
  reached other member fresh := by
    by_cases same : other = name
    · subst same
      exact .listed List.mem_cons_self
    · exact reachable_of_extension present (explored.reached other member (by simp [same, fresh]))

/-- From no visited names on, the names in the end are the reachable ones. -/
theorem Explored.mem_iff {manifest : Manifest} {stack final : List String} {name : String}
    (explored : manifest.Explored [] stack final) :
    name ∈ final ↔ manifest.Reachable stack name := by
  constructor
  · exact fun member => explored.reached name member List.not_mem_nil
  · intro reached
    induction reached with
    | listed member => exact explored.covers _ member
    | extended _ present extends_ member =>
        obtain ⟨found, known, closed⟩ := explored.closed _ member List.not_mem_nil
        cases present.symm.trans known
        exact closed _ extends_

/-- A walk that succeeds has visited what stood on its stack, and has gathered what the
configurations that it visited declare. -/
theorem explored_of_declaredFrom {manifest : Manifest} {visited : List String} {declared : NameSet}
    {stack : List String} {result : NameSet}
    (walked : manifest.declaredFrom visited declared stack = .ok result) :
    ∃ final, manifest.Explored visited stack final ∧ ∀ dependency, dependency ∈ result ↔
      dependency ∈ declared ∨ ∃ name ∈ final, name ∉ visited ∧
        ∃ found, manifest.configuration? name = some found ∧ dependency ∈ found.declarations := by
  fun_induction declaredFrom manifest visited declared stack with
  | case1 visited declared =>
      cases walked
      refine ⟨visited, .nil manifest visited, fun dependency => ⟨.inl, ?_⟩⟩
      rintro (known | ⟨name, member, fresh, _⟩)
      · exact known
      · exact absurd member fresh
  | case2 visited declared name stack seen walk =>
      obtain ⟨final, explored, gathered⟩ := walk walked
      exact ⟨final, explored.skip seen, gathered⟩
  | case3 visited declared name stack fresh absent => cases walked
  | case4 visited declared name stack fresh found present _ walk =>
      obtain ⟨final, explored, gathered⟩ := walk walked
      refine ⟨final, explored.visit present, fun dependency => ?_⟩
      rw [gathered, NameSet.mem_union, or_assoc]
      refine or_congr_right ⟨?_, ?_⟩
      · rintro (declares | ⟨other, member, unseen, known⟩)
        · exact ⟨name, explored.keeps name List.mem_cons_self, fresh, found, present, declares⟩
        · exact ⟨other, member, fun seen => unseen (List.mem_cons_of_mem name seen), known⟩
      · rintro ⟨other, member, unseen, known, other_present, declares⟩
        by_cases same : other = name
        · subst same
          cases present.symm.trans other_present
          exact .inl declares
        · exact .inr ⟨other, member, by simp [same, unseen], known, other_present, declares⟩

/-- A walk that fails has come to a name that no configuration has. -/
theorem unknown_of_declaredFrom {manifest : Manifest} {visited : List String} {declared : NameSet}
    {stack : List String} {error : AuditError}
    (walked : manifest.declaredFrom visited declared stack = .error error) :
    ∃ name, error = .configuration name ∧ manifest.Reachable stack name ∧
      manifest.configuration? name = none := by
  fun_induction declaredFrom manifest visited declared stack with
  | case1 => cases walked
  | case2 visited declared name stack seen walk =>
      obtain ⟨other, named, reached, absent⟩ := walk walked
      exact ⟨other, named, reached.mono fun _ => List.mem_cons_of_mem name, absent⟩
  | case3 visited declared name stack fresh absent =>
      cases walked
      exact ⟨name, rfl, .listed List.mem_cons_self, absent⟩
  | case4 visited declared name stack fresh found present _ walk =>
      obtain ⟨other, named, reached, absent⟩ := walk walked
      exact ⟨other, named, reachable_of_extension present reached, absent⟩

/-! ## Inherited declarations -/

theorem reachable_reverse {manifest : Manifest} {names : List String} {name : String} :
    manifest.Reachable names.reverse name ↔ manifest.Reachable names name :=
  ⟨fun reached => reached.mono fun _ => List.mem_reverse.mp,
    fun reached => reached.mono fun _ => List.mem_reverse.mpr⟩

/-- What some configurations declare or inherit is what the configurations of the
reachable names declare. -/
theorem mem_declared_iff {manifest : Manifest} {names : List String} {declared : NameSet}
    (gathered : manifest.declared names = .ok declared) {dependency : String} :
    dependency ∈ declared ↔ manifest.Inherits names dependency := by
  obtain ⟨final, explored, members⟩ := explored_of_declaredFrom gathered
  simp only [members, NameSet.not_mem_empty, false_or, List.not_mem_nil, not_false_eq_true,
    true_and, explored.mem_iff, reachable_reverse, Configuration.mem_declarations, Inherits]
  constructor
  · rintro ⟨name, reached, found, present, spelled⟩
    exact ⟨name, found, reached, present, spelled⟩
  · rintro ⟨name, found, reached, present, spelled⟩
    exact ⟨name, reached, found, present, spelled⟩

/-- If inherited declarations cannot be had, a reachable name is unknown, and the error
names one such. -/
theorem declared_eq_error {manifest : Manifest} {names : List String} {error : AuditError}
    (failed : manifest.declared names = .error error) :
    ∃ name, error = .configuration name ∧ manifest.Reachable names name ∧
      manifest.configuration? name = none := by
  obtain ⟨name, named, reached, absent⟩ := unknown_of_declaredFrom failed
  exact ⟨name, named, reachable_reverse.mp reached, absent⟩

/-- Inherited declarations can be had exactly if every reachable name is known. -/
theorem declared_eq_ok_iff {manifest : Manifest} {names : List String} :
    (∃ declared, manifest.declared names = .ok declared) ↔
      ∀ name, manifest.Reachable names name →
        ∃ found, manifest.configuration? name = some found := by
  constructor
  · rintro ⟨declared, gathered⟩ name reached
    obtain ⟨final, explored, _⟩ := explored_of_declaredFrom gathered
    have member : name ∈ final := explored.mem_iff.mpr (reachable_reverse.mpr reached)
    obtain ⟨found, present, _⟩ := explored.closed name member List.not_mem_nil
    exact ⟨found, present⟩
  · intro known
    cases gathered : manifest.declared names with
    | ok declared => exact ⟨declared, rfl⟩
    | error error =>
        obtain ⟨name, _, reached, absent⟩ := declared_eq_error gathered
        obtain ⟨found, present⟩ := known name reached
        cases absent.symm.trans present

/-! ## Declarations of their own -/

theorem configuration_eq_ok {manifest : Manifest} {name : String} {found : Configuration} :
    manifest.configuration name = .ok found ↔ manifest.configuration? name = some found := by
  unfold configuration
  split <;> simp_all

/-- What some configurations declare themselves can be had exactly if all are known. -/
theorem direct_eq_ok_iff {manifest : Manifest} {names : List String} :
    (∃ direct, manifest.direct names = .ok direct) ↔
      ∀ name ∈ names, ∃ found, manifest.configuration? name = some found := by
  simp only [← configuration_eq_ok, ← Outcome.exists_mapM_eq_ok, direct, Outcome.bind_eq_ok]
  constructor
  · rintro ⟨_, found, listed, _⟩
    exact ⟨found, listed⟩
  · rintro ⟨found, listed⟩
    exact ⟨_, found, listed, rfl⟩

theorem mem_direct_iff {manifest : Manifest} {names : List String} {direct : NameSet}
    (gathered : manifest.direct names = .ok direct) {dependency : String} :
    dependency ∈ direct ↔ manifest.Lists names dependency := by
  obtain ⟨found, listed, same⟩ := Outcome.bind_eq_ok.mp gathered
  cases same
  simp only [NameSet.mem_unions, List.mem_map, Outcome.mem_mapM listed, configuration_eq_ok, Lists]
  constructor
  · rintro ⟨_, ⟨configuration, ⟨name, member, present⟩, rfl⟩, declares⟩
    exact ⟨name, member, configuration, present, Configuration.mem_declarations.mp declares⟩
  · rintro ⟨name, member, configuration, present, spelled⟩
    exact ⟨_, ⟨configuration, ⟨name, member, present⟩, rfl⟩,
      Configuration.mem_declarations.mpr spelled⟩

end Manifest

end DependencyAudit
