/-
# DependencyAudit.Proofs.Closure -- inherited declarations as a closure

Gathering declarations walks along extensions, name by name, and extensions may lead in circles,
to one name on several ways, or to a name that several configurations have.  `Walks` writes the
walk down turn by turn, so that its length can be spoken of: each configuration is visited once
at most and puts what it extends on the stack then, so a walk takes no more turns than there are
names to start from and extensions in the manifest (`walks_declaredFrom`).

What it gathers is decided by the names that can be reached, and by nothing else: not by the
order in which they are met, nor by how often (`isClosure_declared`).
-/
import DependencyAudit.Proofs.Inheritance
import Mathlib.Algebra.GroupWithZero.Nat
import Mathlib.Algebra.Order.BigOperators.Group.List
import Mathlib.Algebra.Order.Group.Nat

namespace DependencyAudit.Manifest

set_option autoImplicit false

/-! ## Turns of a walk -/

/-- A walk from some visited names and gathered declarations over a stack of names comes to an
answer after a number of turns. -/
inductive Walks (manifest : Manifest) :
    Nat → List String → NameSet → List String → Except AuditError NameSet → Prop where
  | done (visited : List String) (declared : NameSet) :
      Walks manifest 0 visited declared [] (.ok declared)
  | unknown {visited : List String} {name : String} (declared : NameSet) (stack : List String)
      (fresh : name ∉ visited) (absent : manifest.configuration? name = none) :
      Walks manifest 0 visited declared (name :: stack) (.error (.configuration name))
  | skip {turns : Nat} {visited stack : List String} {name : String} {declared : NameSet}
      {answer : Except AuditError NameSet} (seen : name ∈ visited)
      (walks : Walks manifest turns visited declared stack answer) :
      Walks manifest (turns + 1) visited declared (name :: stack) answer
  | visit {turns : Nat} {visited stack : List String} {name : String} {declared : NameSet}
      {found : Configuration} {answer : Except AuditError NameSet} (fresh : name ∉ visited)
      (present : manifest.configuration? name = some found)
      (walks : Walks manifest turns (name :: visited) (declared.union found.declarations)
        (found.extendsFrom.reverse ++ stack) answer) :
      Walks manifest (turns + 1) visited declared (name :: stack) answer

/-- The number of extensions of configurations whose names are not visited. -/
def pending (manifest : Manifest) (visited : List String) : Nat :=
  (manifest.configurations.map fun configuration =>
    if configuration.name ∈ visited then 0 else configuration.extendsFrom.length).sum

/-- The number of all extensions. -/
def extensionCount (manifest : Manifest) : Nat :=
  (manifest.configurations.map fun configuration => configuration.extendsFrom.length).sum

theorem pending_nil (manifest : Manifest) : manifest.pending [] = manifest.extensionCount := by
  simp [pending, extensionCount]

/-- What a visited configuration extends is pending no more. -/
theorem pending_visit_le {manifest : Manifest} {visited : List String} {name : String}
    {found : Configuration} (present : manifest.configuration? name = some found)
    (fresh : name ∉ visited) :
    manifest.pending (name :: visited) + found.extendsFrom.length ≤ manifest.pending visited := by
  have named := configuration_name present
  have member := List.mem_of_find?_eq_some present
  unfold pending
  generalize manifest.configurations = configurations at member
  induction configurations with
  | nil => cases member
  | cons first rest less =>
      simp only [List.map_cons, List.sum_cons]
      rcases List.mem_cons.mp member with rfl | later
      · have others : (rest.map fun configuration =>
            if configuration.name ∈ name :: visited then 0
            else configuration.extendsFrom.length).sum ≤
            (rest.map fun configuration =>
              if configuration.name ∈ visited then 0
              else configuration.extendsFrom.length).sum := by
          refine List.sum_le_sum fun configuration _ => ?_
          by_cases seen : configuration.name ∈ visited
          · simp [seen]
          · rw [if_neg seen]
            split <;> omega
        rw [if_pos (by simp [named]), if_neg (by rwa [named])]
        omega
      · have tail := less later
        by_cases seen : first.name ∈ visited
        · rw [if_pos (List.mem_cons_of_mem name seen), if_pos seen]
          omega
        · rw [if_neg seen]
          split <;> omega

/-- Every walk ends, within as many turns as there are names on its stack and extensions that
it may still put there. -/
theorem walks_declaredFrom (manifest : Manifest) (visited : List String) (declared : NameSet)
    (stack : List String) :
    ∃ turns ≤ stack.length + manifest.pending visited,
      manifest.Walks turns visited declared stack
        (manifest.declaredFrom visited declared stack) := by
  fun_induction declaredFrom manifest visited declared stack with
  | case1 visited declared => exact ⟨0, Nat.zero_le _, .done visited declared⟩
  | case2 visited declared name stack seen walk =>
      obtain ⟨turns, few, walks⟩ := walk
      refine ⟨turns + 1, ?_, .skip seen walks⟩
      rw [List.length_cons]
      omega
  | case3 visited declared name stack fresh absent =>
      exact ⟨0, Nat.zero_le _, .unknown declared stack fresh absent⟩
  | case4 visited declared name stack fresh found present _ walk =>
      obtain ⟨turns, few, walks⟩ := walk
      refine ⟨turns + 1, ?_, .visit fresh present walks⟩
      have less := pending_visit_le present fresh
      rw [List.length_append, List.length_reverse] at few
      rw [List.length_cons]
      omega

/-! ## Answers -/

/-- Names that lead to the same configurations in any order, any number of times, inherit the
same. -/
theorem reachable_congr {manifest : Manifest} {names others : List String}
    (same : ∀ name, name ∈ others ↔ name ∈ names) {name : String} :
    manifest.Reachable others name ↔ manifest.Reachable names name :=
  ⟨fun reached => reached.mono fun name => (same name).mp,
    fun reached => reached.mono fun name => (same name).mpr⟩

theorem reachable_append {manifest : Manifest} {names more : List String} {name : String} :
    manifest.Reachable (names ++ more) name ↔
      manifest.Reachable names name ∨ manifest.Reachable more name := by
  constructor
  · intro reached
    induction reached with
    | listed member =>
        rcases List.mem_append.mp member with first | second
        · exact .inl (.listed first)
        · exact .inr (.listed second)
    | extended _ present extends_ earlier =>
        rcases earlier with first | second
        · exact .inl (first.extended present extends_)
        · exact .inr (second.extended present extends_)
  · rintro (reached | reached)
    · exact reached.mono fun _ => List.mem_append_left more
    · exact reached.mono fun _ => List.mem_append_right names

theorem inherits_append {manifest : Manifest} {names more : List String} {dependency : String} :
    manifest.Inherits (names ++ more) dependency ↔
      manifest.Inherits names dependency ∨ manifest.Inherits more dependency := by
  simp only [Inherits, reachable_append, or_and_right, exists_or]

/-- Declarations that can be had are the only ones with their members. -/
theorem declared_eq_ok {manifest : Manifest} {names : List String} {declared : NameSet} :
    manifest.declared names = .ok declared ↔
      (∀ name, manifest.Reachable names name →
        ∃ found, manifest.configuration? name = some found) ∧
      ∀ dependency, dependency ∈ declared ↔ manifest.Inherits names dependency := by
  constructor
  · intro gathered
    exact ⟨declared_eq_ok_iff.mp ⟨declared, gathered⟩, fun _ => mem_declared_iff gathered⟩
  · rintro ⟨known, members⟩
    obtain ⟨other, gathered⟩ := declared_eq_ok_iff.mpr known
    have same : other = declared := by
      ext dependency
      rw [mem_declared_iff gathered, members]
    rw [gathered, same]

/-- Neither order nor repetition of the names matters. -/
theorem toOption_declared_congr {manifest : Manifest} {names others : List String}
    (same : ∀ name, name ∈ others ↔ name ∈ names) :
    (manifest.declared others).toOption = (manifest.declared names).toOption := by
  refine Option.ext fun declared => ?_
  rw [Outcome.toOption_eq_some, Outcome.toOption_eq_some, declared_eq_ok, declared_eq_ok]
  simp only [Inherits, reachable_congr same]

/-- What two lists of names inherit together is what each of them inherits. -/
theorem declared_append_eq_ok_iff {manifest : Manifest} {names more : List String}
    {whole : NameSet} :
    manifest.declared (names ++ more) = .ok whole ↔
      ∃ first second, manifest.declared names = .ok first ∧ manifest.declared more = .ok second ∧
        whole = first.union second := by
  constructor
  · intro gathered
    obtain ⟨known, members⟩ := declared_eq_ok.mp gathered
    obtain ⟨first, ofNames⟩ := declared_eq_ok_iff.mpr fun name reached =>
      known name (reachable_append.mpr (.inl reached))
    obtain ⟨second, ofMore⟩ := declared_eq_ok_iff.mpr fun name reached =>
      known name (reachable_append.mpr (.inr reached))
    refine ⟨first, second, ofNames, ofMore, ?_⟩
    ext dependency
    rw [members, inherits_append, NameSet.mem_union, mem_declared_iff ofNames,
      mem_declared_iff ofMore]
  · rintro ⟨first, second, ofNames, ofMore, rfl⟩
    refine declared_eq_ok.mpr ⟨fun name reached => ?_, fun dependency => ?_⟩
    · rcases reachable_append.mp reached with inFirst | inSecond
      · exact declared_eq_ok_iff.mp ⟨first, ofNames⟩ name inFirst
      · exact declared_eq_ok_iff.mp ⟨second, ofMore⟩ name inSecond
    · rw [inherits_append, NameSet.mem_union, mem_declared_iff ofNames, mem_declared_iff ofMore]

/-- What some names declare themselves can be had if all that they inherit can, and is part of
it. -/
theorem direct_subset_declared {manifest : Manifest} {names : List String} {declared : NameSet}
    (gathered : manifest.declared names = .ok declared) :
    ∃ direct, manifest.direct names = .ok direct ∧
      ∀ dependency ∈ direct, dependency ∈ declared := by
  have known := declared_eq_ok_iff.mp ⟨declared, gathered⟩
  obtain ⟨direct, listed⟩ := direct_eq_ok_iff.mpr fun name member => known name (.listed member)
  refine ⟨direct, listed, fun dependency member => ?_⟩
  exact (mem_declared_iff gathered).mpr ((mem_direct_iff listed).mp member).inherits

/-! ## The whole -/

theorem configuration?_eq_some_iff_named {manifest : Manifest} {name : String} :
    (∃ found, manifest.configuration? name = some found) ↔
      ∃ configuration ∈ manifest.configurations, configuration.name = name := by
  rw [← Option.isSome_iff_exists, configuration?, List.find?_isSome]
  simp

/-- What is gathered for some names is what they lead to through extensions. -/
structure IsClosure (manifest : Manifest) (names : List String) : Prop where
  /-- The walk ends, whatever extends what. -/
  ends : ∃ turns ≤ names.length + manifest.extensionCount,
    manifest.Walks turns [] .empty names.reverse (manifest.declared names)
  /-- There is an answer exactly if every reachable name is that of a configuration. -/
  answers : (∃ declared, manifest.declared names = .ok declared) ↔
    ∀ name, manifest.Reachable names name →
      ∃ configuration ∈ manifest.configurations, configuration.name = name
  /-- It holds what the first configuration of each reachable name declares. -/
  exact : ∀ declared, manifest.declared names = .ok declared → ∀ dependency,
    dependency ∈ declared ↔ manifest.Inherits names dependency
  /-- An error names something reachable that is the name of no configuration. -/
  fails : ∀ error, manifest.declared names = .error error → ∃ name,
    error = .configuration name ∧ manifest.Reachable names name ∧
      ∀ configuration ∈ manifest.configurations, configuration.name ≠ name
  /-- Neither order nor repetition of the names matters; only which of several unknown names an
  error is about is left open. -/
  unordered : ∀ others, (∀ name, name ∈ others ↔ name ∈ names) →
    (manifest.declared others).toOption = (manifest.declared names).toOption
  splits : ∀ more whole, manifest.declared (names ++ more) = .ok whole ↔
    ∃ first second, manifest.declared names = .ok first ∧ manifest.declared more = .ok second ∧
      whole = first.union second
  covers : ∀ declared, manifest.declared names = .ok declared → ∃ direct,
    manifest.direct names = .ok direct ∧ ∀ dependency ∈ direct, dependency ∈ declared

/-- For every manifest and all names, gathering comes to an end, and to the closure of the names
under extension. -/
theorem isClosure_declared (manifest : Manifest) (names : List String) :
    manifest.IsClosure names where
  ends := by
    have walks := walks_declaredFrom manifest [] .empty names.reverse
    rwa [List.length_reverse, pending_nil] at walks
  answers := by simp only [declared_eq_ok_iff, configuration?_eq_some_iff_named]
  exact _ gathered _ := mem_declared_iff gathered
  fails error failed := by
    obtain ⟨name, named, reached, absent⟩ := declared_eq_error failed
    refine ⟨name, named, reached, fun configuration member same => ?_⟩
    obtain ⟨found, present⟩ := configuration?_eq_some_iff_named.mpr ⟨configuration, member, same⟩
    cases absent.symm.trans present
  unordered _ same := toOption_declared_congr same
  splits _ _ := declared_append_eq_ok_iff
  covers _ gathered := direct_subset_declared gathered

end DependencyAudit.Manifest
