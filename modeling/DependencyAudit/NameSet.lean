/-
# DependencyAudit.NameSet -- finite sets of names in order

A set of names is the strictly ascending list of its members, in code-point
order, and the order is part of the type.  So two sets with the same members
are equal (`ext`), listing a set needs no sorting, and every answer that lists
one is determined by its members alone.

Each operation has one equation for membership: `mem_insert`, `mem_insertAll`,
`mem_ofList`, `mem_union`, `mem_diff`, `mem_inter`, `mem_erase`, `mem_filter`.
-/

namespace DependencyAudit

set_option autoImplicit false

/-- A finite set of names. -/
structure NameSet where
  /-- The members, ascending. -/
  toList : List String
  ascending : toList.Pairwise (· < ·)
deriving DecidableEq

namespace NameSet

instance : Repr NameSet where
  reprPrec names precedence := reprPrec names.toList precedence

instance : Membership String NameSet where
  mem names name := name ∈ names.toList

instance (name : String) (names : NameSet) : Decidable (name ∈ names) :=
  inferInstanceAs (Decidable (name ∈ names.toList))

@[simp] theorem mem_toList {names : NameSet} {name : String} :
    name ∈ names.toList ↔ name ∈ names := Iff.rfl

/-! ## Construction -/

def empty : NameSet := ⟨[], .nil⟩

instance : EmptyCollection NameSet := ⟨empty⟩

instance : Inhabited NameSet := ⟨empty⟩

/-- Puts a name at its place among ascending names. -/
def insertAscending (name : String) : List String → List String
  | [] => [name]
  | first :: rest =>
      if name < first then name :: first :: rest
      else if name = first then first :: rest
      else first :: insertAscending name rest

theorem mem_insertAscending {name other : String} :
    ∀ {names : List String}, other ∈ insertAscending name names ↔ other = name ∨ other ∈ names
  | [] => by simp [insertAscending]
  | first :: rest => by
      simp only [insertAscending]
      split
      · simp
      · split
        · rename_i same
          subst same
          simp
        · simp only [List.mem_cons, mem_insertAscending]
          constructor
          · rintro (h | h | h) <;> simp [h]
          · rintro (h | h | h) <;> simp [h]

theorem insertAscending_ascending {name : String} :
    ∀ {names : List String}, names.Pairwise (· < ·) →
      (insertAscending name names).Pairwise (· < ·)
  | [], _ => by simp [insertAscending]
  | first :: rest, sorted => by
      obtain ⟨least, tail⟩ := List.pairwise_cons.mp sorted
      simp only [insertAscending]
      split
      · rename_i below
        refine List.pairwise_cons.mpr ⟨fun other member => ?_, sorted⟩
        rcases List.mem_cons.mp member with rfl | member
        · exact below
        · exact String.lt_trans below (least other member)
      · split
        · exact sorted
        · rename_i above distinct
          refine List.pairwise_cons.mpr ⟨fun other member => ?_, insertAscending_ascending tail⟩
          rcases mem_insertAscending.mp member with rfl | member
          · refine Decidable.byContradiction fun notBelow => distinct ?_
            exact String.le_antisymm (String.not_lt.mp notBelow) (String.not_lt.mp above)
          · exact least other member

def insert (name : String) (names : NameSet) : NameSet :=
  ⟨insertAscending name names.toList, insertAscending_ascending names.ascending⟩

/-- Adds every name of a list. -/
def insertAll (names : NameSet) (more : List String) : NameSet :=
  more.foldl (fun set name => set.insert name) names

def ofList (names : List String) : NameSet :=
  empty.insertAll names

/-! ## Combination -/

/-- The members that satisfy a test. -/
def filter (keep : String → Bool) (names : NameSet) : NameSet :=
  ⟨names.toList.filter keep, names.ascending.filter keep⟩

def union (names more : NameSet) : NameSet :=
  names.insertAll more.toList

def diff (names fewer : NameSet) : NameSet :=
  names.filter fun name => decide (name ∉ fewer)

def inter (names others : NameSet) : NameSet :=
  names.filter fun name => decide (name ∈ others)

def erase (names : NameSet) (name : String) : NameSet :=
  names.filter fun other => decide (other ≠ name)

def isEmpty (names : NameSet) : Bool :=
  names.toList.isEmpty

def size (names : NameSet) : Nat :=
  names.toList.length

/-- The union of a list of sets. -/
def unions (sets : List NameSet) : NameSet :=
  sets.foldl union empty

/-! ## Membership -/

@[simp] theorem not_mem_empty (name : String) : name ∉ (empty : NameSet) :=
  List.not_mem_nil

@[simp] theorem mem_insert {name other : String} {names : NameSet} :
    other ∈ names.insert name ↔ other = name ∨ other ∈ names :=
  mem_insertAscending

@[simp] theorem mem_insertAll {name : String} :
    ∀ {more : List String} {names : NameSet},
      name ∈ names.insertAll more ↔ name ∈ names ∨ name ∈ more
  | [], names => by simp [insertAll]
  | first :: rest, names => by
      have tail : name ∈ (names.insert first).insertAll rest ↔ _ := mem_insertAll
      simp only [insertAll, List.foldl_cons] at tail ⊢
      rw [tail, mem_insert, List.mem_cons, or_assoc, or_left_comm]

@[simp] theorem mem_ofList {name : String} {names : List String} :
    name ∈ ofList names ↔ name ∈ names := by
  simp [ofList]

@[simp] theorem mem_filter {name : String} {names : NameSet} {keep : String → Bool} :
    name ∈ names.filter keep ↔ name ∈ names ∧ keep name = true :=
  List.mem_filter

@[simp] theorem mem_union {name : String} {names more : NameSet} :
    name ∈ names.union more ↔ name ∈ names ∨ name ∈ more := by
  simp [union]

@[simp] theorem mem_diff {name : String} {names fewer : NameSet} :
    name ∈ names.diff fewer ↔ name ∈ names ∧ name ∉ fewer := by
  simp [diff]

@[simp] theorem mem_inter {name : String} {names others : NameSet} :
    name ∈ names.inter others ↔ name ∈ names ∧ name ∈ others := by
  simp [inter]

@[simp] theorem mem_erase {name other : String} {names : NameSet} :
    other ∈ names.erase name ↔ other ∈ names ∧ other ≠ name := by
  simp [erase]

theorem mem_foldl_union {name : String} :
    ∀ {sets : List NameSet} {names : NameSet},
      name ∈ sets.foldl union names ↔ name ∈ names ∨ ∃ set ∈ sets, name ∈ set
  | [], names => by simp
  | first :: rest, names => by
      simp [mem_foldl_union, or_assoc]

@[simp] theorem mem_unions {name : String} {sets : List NameSet} :
    name ∈ unions sets ↔ ∃ set ∈ sets, name ∈ set := by
  simp [unions, mem_foldl_union]

/-! ## Extensionality -/

theorem eq_of_same_members :
    ∀ {left right : List String}, left.Pairwise (· < ·) → right.Pairwise (· < ·) →
      (∀ name, name ∈ left ↔ name ∈ right) → left = right
  | [], [], _, _, _ => rfl
  | [], first :: _, _, _, same => absurd ((same first).mpr List.mem_cons_self) List.not_mem_nil
  | first :: _, [], _, _, same => absurd ((same first).mp List.mem_cons_self) List.not_mem_nil
  | first :: rest, head :: tail, sorted, ordered, same => by
      obtain ⟨leastRest, sortedRest⟩ := List.pairwise_cons.mp sorted
      obtain ⟨leastTail, sortedTail⟩ := List.pairwise_cons.mp ordered
      have heads : first = head := by
        rcases List.mem_cons.mp ((same first).mp List.mem_cons_self) with equal | inTail
        · exact equal
        · rcases List.mem_cons.mp ((same head).mpr List.mem_cons_self) with equal | inRest
          · exact equal.symm
          · exact absurd (String.lt_trans (leastTail first inTail) (leastRest head inRest))
              (String.lt_irrefl head)
      subst heads
      have tails : rest = tail := by
        refine eq_of_same_members sortedRest sortedTail fun name => ?_
        have cons := same name
        simp only [List.mem_cons] at cons
        constructor
        · intro inRest
          rcases cons.mp (.inr inRest) with rfl | inTail
          · exact absurd (leastRest name inRest) (String.lt_irrefl name)
          · exact inTail
        · intro inTail
          rcases cons.mpr (.inr inTail) with rfl | inRest
          · exact absurd (leastTail name inTail) (String.lt_irrefl name)
          · exact inRest
      rw [tails]

/-- Sets with the same members are equal. -/
@[ext] theorem ext {left right : NameSet} (same : ∀ name, name ∈ left ↔ name ∈ right) :
    left = right := by
  cases left with
  | mk names sorted =>
    cases right with
    | mk others ordered =>
      have equal : names = others := eq_of_same_members sorted ordered same
      subst equal
      rfl

theorem ofList_toList (names : NameSet) : ofList names.toList = names := by
  ext name
  simp

end NameSet

end DependencyAudit
