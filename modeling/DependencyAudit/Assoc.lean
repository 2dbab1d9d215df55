/-
# DependencyAudit.Assoc -- finite maps

An `Assoc` holds one value for each of finitely many keys, in the order in which the keys
were first given.  `update` changes what is held for a key, `get?` looks it up: an update is
seen at its key and nowhere else (`get?_update_self`, `get?_update_of_ne`).  The keys are
what something is held for (`isSome_get?_iff`), and their order does not matter to a look-up
(`get?_of_perm`).
-/

namespace DependencyAudit

set_option autoImplicit false

/-- Values for finitely many keys. -/
structure Assoc (κ α : Type) where
  entries : List (κ × α)
  distinct : (entries.map Prod.fst).Nodup

namespace Assoc

variable {κ α : Type}

instance : Inhabited (Assoc κ α) := ⟨⟨[], List.nodup_nil⟩⟩

def empty : Assoc κ α := ⟨[], List.nodup_nil⟩

def size (map : Assoc κ α) : Nat :=
  map.entries.length

def isEmpty (map : Assoc κ α) : Bool :=
  map.entries.isEmpty

def keys (map : Assoc κ α) : List κ :=
  map.entries.map Prod.fst

def values (map : Assoc κ α) : List α :=
  map.entries.map Prod.snd

variable [DecidableEq κ]

/-- What is held for a key. -/
def get? (map : Assoc κ α) (key : κ) : Option α :=
  (map.entries.find? (·.1 = key)).map Prod.snd

/-- Changes the entry of a key, or adds one at the end. -/
def updateEntries (change : Option α → α) (key : κ) : List (κ × α) → List (κ × α)
  | [] => [(key, change none)]
  | (other, value) :: rest =>
      if other = key then (other, change (some value)) :: rest
      else (other, value) :: updateEntries change key rest

theorem mem_updateEntries {change : Option α → α} {key other : κ} :
    ∀ {entries : List (κ × α)},
      other ∈ (updateEntries change key entries).map Prod.fst ↔
        other = key ∨ other ∈ entries.map Prod.fst
  | [] => by simp [updateEntries]
  | (first, value) :: rest => by
      by_cases same : first = key
      · subst same
        simp [updateEntries]
      · rw [updateEntries, if_neg same, List.map_cons, List.mem_cons, mem_updateEntries,
          List.map_cons, List.mem_cons]
        exact or_left_comm

theorem updateEntries_distinct {change : Option α → α} {key : κ} :
    ∀ {entries : List (κ × α)}, (entries.map Prod.fst).Nodup →
      ((updateEntries change key entries).map Prod.fst).Nodup
  | [], _ => by simp [updateEntries]
  | (first, value) :: rest, distinct => by
      rw [List.map_cons, List.nodup_cons] at distinct
      by_cases same : first = key
      · subst same
        rw [updateEntries, if_pos rfl, List.map_cons, List.nodup_cons]
        exact distinct
      · rw [updateEntries, if_neg same, List.map_cons, List.nodup_cons]
        refine ⟨?_, updateEntries_distinct distinct.2⟩
        rw [mem_updateEntries]
        rintro (equal | present)
        · exact same equal
        · exact distinct.1 present

/-- Changes what is held for a key. -/
def update (map : Assoc κ α) (key : κ) (change : Option α → α) : Assoc κ α :=
  ⟨updateEntries change key map.entries, updateEntries_distinct map.distinct⟩

/-- Holds a value for a key, in place of any other. -/
def insert (map : Assoc κ α) (key : κ) (value : α) : Assoc κ α :=
  map.update key fun _ => value

/-- The entries that are to be kept. -/
def filter (keep : κ × α → Bool) (map : Assoc κ α) : Assoc κ α :=
  ⟨map.entries.filter keep, (List.filter_sublist.map Prod.fst).nodup map.distinct⟩

/-! ## Facts -/

theorem find?_updateEntries_self {change : Option α → α} {key : κ} :
    ∀ {entries : List (κ × α)},
      ((updateEntries change key entries).find? (·.1 = key)).map Prod.snd =
        some (change ((entries.find? (·.1 = key)).map Prod.snd))
  | [] => by simp [updateEntries]
  | (first, value) :: rest => by
      by_cases same : first = key
      · simp [updateEntries, same]
      · rw [updateEntries, if_neg same, List.find?_cons_of_neg (by simpa using same),
          List.find?_cons_of_neg (by simpa using same)]
        exact find?_updateEntries_self

theorem find?_updateEntries_of_ne {change : Option α → α} {key other : κ} (distinct : other ≠ key) :
    ∀ {entries : List (κ × α)},
      (updateEntries change key entries).find? (·.1 = other) = entries.find? (·.1 = other)
  | [] => by simp [updateEntries, Ne.symm distinct]
  | (first, value) :: rest => by
      by_cases same : first = key
      · subst same
        simp [updateEntries, Ne.symm distinct]
      · rw [updateEntries, if_neg same, List.find?_cons, List.find?_cons,
          find?_updateEntries_of_ne distinct]

theorem get?_update_self (map : Assoc κ α) (key : κ) (change : Option α → α) :
    (map.update key change).get? key = some (change (map.get? key)) :=
  find?_updateEntries_self

theorem get?_update_of_ne (map : Assoc κ α) {key other : κ} (change : Option α → α)
    (distinct : other ≠ key) : (map.update key change).get? other = map.get? other := by
  rw [get?, update, find?_updateEntries_of_ne distinct, get?]

theorem isSome_get?_iff {map : Assoc κ α} {key : κ} : (map.get? key).isSome ↔ key ∈ map.keys := by
  simp [get?, keys]

theorem find?_of_distinct {key : κ} {value : α} :
    ∀ {entries : List (κ × α)}, (entries.map Prod.fst).Nodup → (key, value) ∈ entries →
      (entries.find? (·.1 = key)).map Prod.snd = some value
  | (other, held) :: rest, distinct, member => by
      rw [List.map_cons, List.nodup_cons] at distinct
      rcases List.mem_cons.mp member with same | inRest
      · cases same
        simp
      · have differs : other ≠ key := by
          rintro rfl
          exact distinct.1 (List.mem_map.mpr ⟨(other, value), inRest, rfl⟩)
        rw [List.find?_cons_of_neg (by simpa using differs)]
        exact find?_of_distinct distinct.2 inRest

theorem get?_eq_some_iff {map : Assoc κ α} {key : κ} {value : α} :
    map.get? key = some value ↔ (key, value) ∈ map.entries := by
  constructor
  · intro held
    obtain ⟨⟨other, found⟩, first, same⟩ := Option.map_eq_some_iff.mp held
    have known : other = key := by simpa using List.find?_some first
    subst known
    subst same
    exact List.mem_of_find?_eq_some first
  · exact find?_of_distinct map.distinct

/-- Nothing depends on the order in which the entries are listed. -/
theorem get?_of_perm {map other : Assoc κ α} (order : map.entries.Perm other.entries) (key : κ) :
    map.get? key = other.get? key :=
  Option.ext fun _ => by rw [get?_eq_some_iff, get?_eq_some_iff, order.mem_iff]

/-- What is held for a key stays if its entry is kept. -/
theorem get?_filter (map : Assoc κ α) (keep : κ × α → Bool) (key : κ) :
    (map.filter keep).get? key = (map.get? key).filter fun value => keep (key, value) := by
  ext value
  rw [get?_eq_some_iff, Option.filter_eq_some_iff, get?_eq_some_iff]
  exact List.mem_filter

theorem mem_keys_update (map : Assoc κ α) (key other : κ) (change : Option α → α) :
    other ∈ (map.update key change).keys ↔ other = key ∨ other ∈ map.keys :=
  mem_updateEntries

end Assoc

end DependencyAudit
