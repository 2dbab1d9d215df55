/-
# DependencyAudit.Text.Split -- cutting a text at a character

`splitOn` cuts at every occurrence of a separator, so it gives one part more than there
are separators (`length_splitOn`), and `cutAt?` cuts at the first occurrence.  Parts
without the separator that are put together with it come apart again
(`splitOn_intercalate`).
-/

namespace DependencyAudit.Text

set_option autoImplicit false

/-- The parts between the occurrences of a separator. -/
def splitOn (separator : Char) : List Char → List (List Char)
  | [] => [[]]
  | c :: rest =>
      if c = separator then [] :: splitOn separator rest
      else match splitOn separator rest with
        | [] => [[c]]
        | first :: more => (c :: first) :: more

/-- The parts before and after the first occurrence of a separator. -/
def cutAt? (separator : Char) : List Char → Option (List Char × List Char)
  | [] => none
  | c :: rest =>
      if c = separator then some ([], rest)
      else (cutAt? separator rest).map fun (before, after) => (c :: before, after)

/-! ## Facts -/

theorem splitOn_ne_nil (separator : Char) (cs : List Char) : splitOn separator cs ≠ [] := by
  cases cs with
  | nil => simp [splitOn]
  | cons c rest =>
      simp only [splitOn]
      split
      · simp
      · split <;> simp

theorem splitOn_of_notMem {separator : Char} :
    ∀ {cs : List Char}, separator ∉ cs → splitOn separator cs = [cs]
  | [], _ => rfl
  | c :: rest, absent => by
      have head : c ≠ separator := fun same => absent (same ▸ List.mem_cons_self)
      have tail := splitOn_of_notMem fun member => absent (List.mem_cons_of_mem c member)
      simp [splitOn, head, tail]

theorem splitOn_append (separator : Char) (cs ds : List Char) :
    splitOn separator (cs ++ separator :: ds) = splitOn separator cs ++ splitOn separator ds := by
  induction cs with
  | nil => simp [splitOn]
  | cons c rest step =>
      by_cases same : c = separator
      · simp [splitOn, same, step]
      · simp only [List.cons_append, splitOn, same, if_false, step]
        cases cut : splitOn separator rest with
        | nil => exact absurd cut (splitOn_ne_nil separator rest)
        | cons first more => rfl

/-- There is one part more than there are separators. -/
theorem length_splitOn (separator : Char) (cs : List Char) :
    (splitOn separator cs).length = cs.count separator + 1 := by
  induction cs with
  | nil => rfl
  | cons c rest step =>
      by_cases same : c = separator
      · rw [splitOn, if_pos same, List.length_cons, step, same, List.count_cons_self]
      · rw [splitOn, if_neg same, List.count_cons_of_ne same, ← step]
        cases cut : splitOn separator rest with
        | nil => exact absurd cut (splitOn_ne_nil separator rest)
        | cons first more => rfl

/-- No part holds the separator. -/
theorem notMem_of_mem_splitOn {separator : Char} :
    ∀ {cs part : List Char}, part ∈ splitOn separator cs → separator ∉ part
  | [], part, member => by
      rw [splitOn, List.mem_singleton] at member
      simp [member]
  | c :: rest, part, member => by
      have behind := @notMem_of_mem_splitOn separator rest
      rw [splitOn] at member
      by_cases same : c = separator
      · rw [if_pos same, List.mem_cons] at member
        rcases member with rfl | member
        · simp
        · exact behind member
      · rw [if_neg same] at member
        split at member
        · rw [List.mem_singleton] at member
          simpa [member] using Ne.symm same
        · rename_i first more cut
          rw [cut] at behind
          rcases List.mem_cons.mp member with rfl | member
          · simpa [Ne.symm same] using behind List.mem_cons_self
          · exact behind (List.mem_cons_of_mem first member)

/-- The first part is the beginning of the text. -/
theorem exists_append_of_splitOn {separator : Char} :
    ∀ {cs first : List Char} {more : List (List Char)},
      splitOn separator cs = first :: more → ∃ rest, cs = first ++ rest
  | [], _, _, cut => by
      rw [splitOn] at cut
      exact ⟨[], by simp [← (List.cons.inj cut).1]⟩
  | c :: cs, first, more, cut => by
      rw [splitOn] at cut
      by_cases same : c = separator
      · rw [if_pos same] at cut
        exact ⟨c :: cs, by rw [← (List.cons.inj cut).1, List.nil_append]⟩
      · rw [if_neg same] at cut
        cases tail : splitOn separator cs with
        | nil => exact absurd tail (splitOn_ne_nil separator cs)
        | cons next others =>
            rw [tail] at cut
            obtain ⟨rest, shape⟩ := exists_append_of_splitOn tail
            exact ⟨rest, by rw [← (List.cons.inj cut).1, List.cons_append, ← shape]⟩

/-- Parts without the separator, put together with it, are the parts again. -/
theorem splitOn_intercalate {separator : Char} {parts : List (List Char)} (filled : parts ≠ [])
    (whole : ∀ part ∈ parts, separator ∉ part) :
    splitOn separator ([separator].intercalate parts) = parts := by
  induction parts with
  | nil => exact absurd rfl filled
  | cons part parts rest =>
      have absent := whole part List.mem_cons_self
      cases parts with
      | nil => rw [List.intercalate_singleton, splitOn_of_notMem absent]
      | cons next parts =>
          rw [List.intercalate_cons_cons, List.append_assoc, List.singleton_append, splitOn_append,
            splitOn_of_notMem absent, List.singleton_append,
            rest (by simp) fun other member => whole other (List.mem_cons_of_mem part member)]

theorem cutAt?_eq_some_iff {separator : Char} :
    ∀ {cs before after : List Char},
      cutAt? separator cs = some (before, after) ↔
        cs = before ++ separator :: after ∧ separator ∉ before
  | [], before, after => by simp [cutAt?]
  | c :: rest, before, after => by
      by_cases same : c = separator
      · subst same
        simp only [cutAt?, if_true, Option.some.injEq, Prod.mk.injEq]
        constructor
        · rintro ⟨rfl, rfl⟩
          simp
        · rintro ⟨shape, absent⟩
          cases before with
          | nil => simpa using shape
          | cons d more =>
              simp only [List.cons_append, List.cons.injEq] at shape
              exact absurd (shape.1 ▸ List.mem_cons_self) absent
      · simp only [cutAt?, same, if_false, Option.map_eq_some_iff, Prod.exists, Prod.mk.injEq]
        constructor
        · rintro ⟨start, stop, found, rfl, rfl⟩
          obtain ⟨shape, absent⟩ := cutAt?_eq_some_iff.mp found
          refine ⟨by rw [shape, List.cons_append], ?_⟩
          rintro (_ | ⟨_, member⟩)
          · exact same rfl
          · exact absent member
        · rintro ⟨shape, absent⟩
          cases before with
          | nil =>
              simp only [List.nil_append, List.cons.injEq] at shape
              exact absurd shape.1 same
          | cons d more =>
              simp only [List.cons_append, List.cons.injEq] at shape
              obtain ⟨rfl, shape⟩ := shape
              exact ⟨more, after, cutAt?_eq_some_iff.mpr
                ⟨shape, fun member => absent (List.mem_cons_of_mem c member)⟩, rfl, rfl⟩

end DependencyAudit.Text
