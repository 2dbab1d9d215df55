/-
# DependencyAudit.Text.Blank -- white space, and what is left without it

The white space of Unicode (property `White_Space`) is twenty-five characters.
This module decides membership and trims text by any class of characters, on
lists of characters and on strings.

What is trimmed off the end is of the class and no more (`dropBack_append_cons`,
`getLast?_dropBack`), so padding at either end does not matter (`trimBy_append_of_all`,
`trimBy_of_append_all`), and a text that was trimmed, or has no blank at either end, is left
alone (`trimBy_trimBy`, `trimBlank_eq_self`).  `after?` finds a literal beginning and nothing
else (`after?_append`, `eq_append_of_after?`).
-/

namespace DependencyAudit.Text

set_option autoImplicit false

/-! ## The class -/

/-- White space of Unicode. -/
def isBlank (c : Char) : Bool :=
  let n := c.toNat
  (9 ≤ n && n ≤ 13) || n == 0x20 || n == 0x85 || n == 0xA0 || n == 0x1680 ||
  (0x2000 ≤ n && n ≤ 0x200A) || n == 0x2028 || n == 0x2029 || n == 0x202F ||
  n == 0x205F || n == 0x3000

/-! ## Trimming lists -/

/-- Without its longest ending of characters of the class. -/
def dropBack (p : Char → Bool) : List Char → List Char
  | [] => []
  | c :: rest =>
      match dropBack p rest with
      | [] => if p c then [] else [c]
      | kept => c :: kept

/-- Without characters of the class at either end. -/
def trimBy (p : Char → Bool) (cs : List Char) : List Char :=
  dropBack p (cs.dropWhile p)

/-- Without white space at either end. -/
def trimBlank (cs : List Char) : List Char :=
  trimBy isBlank cs

/-- The rest after a literal beginning, if the list begins so. -/
def after? : List Char → List Char → Option (List Char)
  | [], cs => some cs
  | _ :: _, [] => none
  | w :: ws, c :: cs => if w = c then after? ws cs else none

/-- The list before a literal ending, if the list ends so. -/
def before? (ending cs : List Char) : Option (List Char) :=
  (after? ending.reverse cs.reverse).map List.reverse

/-! ## Trimming strings -/

/-- A string without white space at either end. -/
def trimmed (s : String) : String :=
  String.ofList (trimBlank s.toList)

/-- A string without white space at its end. -/
def trimmedEnd (s : String) : String :=
  String.ofList (dropBack isBlank s.toList)

/-! ## Facts -/

theorem dropBack_of_all {p : Char → Bool} :
    ∀ {cs : List Char}, (∀ c ∈ cs, p c = true) → dropBack p cs = []
  | [], _ => rfl
  | c :: rest, every => by
      have tail : dropBack p rest = [] :=
        dropBack_of_all fun d member => every d (List.mem_cons_of_mem c member)
      simp [dropBack, tail, every c List.mem_cons_self]

theorem dropBack_append_of_all {p : Char → Bool} {ending : List Char}
    (every : ∀ c ∈ ending, p c = true) :
    ∀ cs : List Char, dropBack p (cs ++ ending) = dropBack p cs
  | [] => by simpa [dropBack] using dropBack_of_all every
  | c :: rest => by simp [dropBack, dropBack_append_of_all every rest]

theorem dropBack_concat {p : Char → Bool} {last : Char} (keeps : p last = false) :
    ∀ cs : List Char, dropBack p (cs ++ [last]) = cs ++ [last]
  | [] => by simp [dropBack, keeps]
  | c :: rest => by
      have tail := dropBack_concat keeps rest
      simp only [List.cons_append, dropBack, tail]
      cases rest <;> rfl

theorem exists_append_dropBack {p : Char → Bool} :
    ∀ cs : List Char, ∃ back, cs = dropBack p cs ++ back ∧ ∀ c ∈ back, p c = true
  | [] => ⟨[], rfl, by simp⟩
  | c :: rest => by
      obtain ⟨back, shape, every⟩ := exists_append_dropBack rest
      cases kept : dropBack p rest with
      | nil =>
          rw [kept, List.nil_append] at shape
          by_cases blank : p c = true
          · refine ⟨c :: back, by simp [dropBack, kept, blank, ← shape], ?_⟩
            exact List.forall_mem_cons.mpr ⟨blank, every⟩
          · exact ⟨back, by simp [dropBack, kept, blank, ← shape], every⟩
      | cons d more =>
          refine ⟨back, ?_, every⟩
          rw [kept] at shape
          rw [dropBack, kept, List.cons_append, ← shape]

theorem dropBack_append_cons {p : Char → Bool} {c : Char} (keeps : p c = false) (ds : List Char) :
    ∀ cs : List Char, dropBack p (cs ++ c :: ds) = cs ++ c :: dropBack p ds
  | [] => by
      simp only [List.nil_append, dropBack, keeps, Bool.false_eq_true, if_false]
      cases dropBack p ds <;> rfl
  | d :: rest => by
      have tail := dropBack_append_cons keeps ds rest
      simp only [List.cons_append, dropBack, tail]
      cases rest <;> rfl

theorem getLast?_dropBack {p : Char → Bool} :
    ∀ {cs : List Char} {last : Char}, (dropBack p cs).getLast? = some last → p last = false
  | [], _, found => by simp [dropBack] at found
  | c :: rest, last, found => by
      cases kept : dropBack p rest with
      | nil =>
          simp only [dropBack, kept] at found
          split at found
          · simp at found
          · rename_i refused
            simp only [List.getLast?_singleton, Option.some.injEq] at found
            simpa [found] using refused
      | cons d more =>
          simp only [dropBack, kept, List.getLast?_cons_cons] at found
          exact getLast?_dropBack (by rw [kept]; exact found)

theorem dropBack_eq_self {p : Char → Bool} :
    ∀ {cs : List Char}, (∀ last, cs.getLast? = some last → p last = false) → dropBack p cs = cs
  | [], _ => rfl
  | [c], ends => by simp [dropBack, ends c rfl]
  | c :: d :: rest, ends => by
      have tail : dropBack p (d :: rest) = d :: rest :=
        dropBack_eq_self fun last found => ends last (by simpa using found)
      rw [dropBack, tail]

theorem dropWhile_eq_self {p : Char → Bool} {cs : List Char}
    (starts : ∀ first, cs.head? = some first → p first = false) : cs.dropWhile p = cs := by
  cases cs with
  | nil => rfl
  | cons c rest => simp [starts c rfl]

theorem trimBy_eq_self {p : Char → Bool} {cs : List Char}
    (starts : ∀ first, cs.head? = some first → p first = false)
    (ends : ∀ last, cs.getLast? = some last → p last = false) : trimBy p cs = cs := by
  rw [trimBy, dropWhile_eq_self starts, dropBack_eq_self ends]

theorem trimBy_of_none {p : Char → Bool} {cs : List Char} (none_of : ∀ c ∈ cs, p c = false) :
    trimBy p cs = cs := by
  apply trimBy_eq_self
  · exact fun first found => none_of first (List.mem_of_mem_head? found)
  · exact fun last found => none_of last (List.mem_of_getLast? found)

theorem trimBy_append_of_all {p : Char → Bool} {front : List Char}
    (every : ∀ c ∈ front, p c = true) (cs : List Char) : trimBy p (front ++ cs) = trimBy p cs := by
  rw [trimBy, List.dropWhile_append_of_pos every, trimBy]

theorem trimBy_of_append_all {p : Char → Bool} {back : List Char}
    (every : ∀ c ∈ back, p c = true) : ∀ cs : List Char, trimBy p (cs ++ back) = trimBy p cs
  | [] => by
      have gone : back.dropWhile p = [] := by
        rw [← List.append_nil back, List.dropWhile_append_of_pos every, List.dropWhile_nil]
      rw [trimBy, trimBy, List.nil_append, gone, List.dropWhile_nil]
  | c :: rest => by
      by_cases blank : p c = true
      · have tail := trimBy_of_append_all every rest
        rw [trimBy, trimBy] at tail
        rw [trimBy, trimBy, List.cons_append, List.dropWhile_cons_of_pos blank,
          List.dropWhile_cons_of_pos blank, tail]
      · rw [trimBy, trimBy, List.cons_append, List.dropWhile_cons_of_neg blank,
          List.dropWhile_cons_of_neg blank, ← List.cons_append, dropBack_append_of_all every]

theorem trimBy_dropBack {p : Char → Bool} (cs : List Char) :
    trimBy p (dropBack p cs) = trimBy p cs := by
  obtain ⟨back, shape, every⟩ := exists_append_dropBack cs
  conv => rhs; rw [shape, trimBy_of_append_all every]

theorem head?_dropBack {p : Char → Bool} {cs : List Char} {first : Char}
    (found : (dropBack p cs).head? = some first) : cs.head? = some first := by
  obtain ⟨back, shape, _⟩ := exists_append_dropBack (p := p) cs
  rw [shape, List.head?_append, found, Option.some_or]

theorem head?_trimBy {p : Char → Bool} {cs : List Char} {first : Char}
    (found : (trimBy p cs).head? = some first) : p first = false := by
  have starts := List.head?_dropWhile_not p cs
  rw [head?_dropBack found] at starts
  simpa using starts

theorem getLast?_trimBy {p : Char → Bool} {cs : List Char} {last : Char}
    (found : (trimBy p cs).getLast? = some last) : p last = false :=
  getLast?_dropBack found

/-- What is trimmed has nothing left to trim. -/
theorem trimBy_trimBy (p : Char → Bool) (cs : List Char) : trimBy p (trimBy p cs) = trimBy p cs :=
  trimBy_eq_self (fun _ found => head?_trimBy found) fun _ found => getLast?_trimBy found

/-- Trimming leaves a part of a text. -/
theorem exists_append_trimBy (p : Char → Bool) (cs : List Char) :
    ∃ front back, cs = front ++ trimBy p cs ++ back ∧ (∀ c ∈ front, p c = true) ∧
      ∀ c ∈ back, p c = true := by
  obtain ⟨back, shape, every⟩ := exists_append_dropBack (p := p) (cs.dropWhile p)
  have front : ∀ c ∈ cs.takeWhile p, p c = true := List.all_eq_true.mp List.all_takeWhile
  refine ⟨cs.takeWhile p, back, ?_, front, every⟩
  rw [trimBy, List.append_assoc, ← shape, List.takeWhile_append_dropWhile]

theorem mem_of_mem_trimBy {p : Char → Bool} {cs : List Char} {c : Char}
    (member : c ∈ trimBy p cs) : c ∈ cs := by
  obtain ⟨front, back, shape, _⟩ := exists_append_trimBy p cs
  rw [shape]
  simp [member]

theorem trimBlank_eq_self {cs : List Char}
    (starts : ∀ first, cs.head? = some first → isBlank first = false)
    (ends : ∀ last, cs.getLast? = some last → isBlank last = false) : trimBlank cs = cs :=
  trimBy_eq_self starts ends

theorem after?_append : ∀ start rest : List Char, after? start (start ++ rest) = some rest
  | [], _ => rfl
  | c :: more, rest => by simp [after?, after?_append more rest]

theorem eq_append_of_after? :
    ∀ {start cs rest : List Char}, after? start cs = some rest → cs = start ++ rest
  | [], cs, rest, found => by simpa [after?] using found
  | _ :: _, [], _, found => by simp [after?] at found
  | w :: ws, c :: cs, rest, found => by
      simp only [after?] at found
      split at found
      · rename_i same
        rw [same, eq_append_of_after? found, List.cons_append]
      · simp at found

theorem after?_eq_none_of_notMem {start cs : List Char} {c : Char} (needed : c ∈ start)
    (absent : c ∉ cs) : after? start cs = none := by
  cases found : after? start cs with
  | none => rfl
  | some rest =>
      rw [eq_append_of_after? found] at absent
      exact absurd (List.mem_append_left rest needed) absent

/-- No beginning goes past a character that it does not hold. -/
theorem after?_append_cons_eq_none {start cs : List Char} {c : Char} (absent : c ∉ start)
    (other : after? start cs = none) (rest : List Char) :
    after? start (cs ++ c :: rest) = none := by
  induction start generalizing cs with
  | nil => simp [after?] at other
  | cons w ws further =>
      rw [List.mem_cons, not_or] at absent
      cases cs with
      | nil => simp [after?, Ne.symm absent.1]
      | cons d ds =>
          rw [List.cons_append, after?]
          rw [after?] at other
          by_cases same : w = d
          · rw [if_pos same] at other ⊢
            exact further absent.2 other
          · rw [if_neg same]

end DependencyAudit.Text
