/-
# DependencyAudit.Proofs.YamlScalars -- plain and quoted scalars read back

A reader takes a whole run of spaces at once and every other character by itself, so texts are
taken as such runs here (`Runs`).

In quotes a character is spelled by one or more characters, and the reader comes from each
spelling to its character (`readQuoted_spelled`).  A plain text has nothing in it that would end
it (`Unended`); what stands behind it does.  So either kind of scalar is read as its text,
whatever lines follow (`readQuoted_of_line`, `readPlain_of_line`, `readPlain_of_key`).
-/
import DependencyAudit.Yaml.FlowScalar
import DependencyAudit.Yaml.Printer
import Mathlib.Algebra.Group.Nat.Defs

namespace DependencyAudit.Yaml

set_option autoImplicit false

/-! ## Runs of spaces -/

/-- A text as runs of spaces and other characters. -/
inductive Runs : List Char → Prop where
  | nil : Runs []
  | other {c : Char} {rest : List Char} (solid : c ≠ ' ') (runs : Runs rest) : Runs (c :: rest)
  | spaces (count : Nat) {rest : List Char} (ends : rest.head? ≠ some ' ') (runs : Runs rest) :
      Runs (List.replicate (count + 1) ' ' ++ rest)

theorem runs : ∀ cs : List Char, Runs cs
  | [] => .nil
  | c :: rest => by
      by_cases space : c = ' '
      · subst space
        cases runs rest with
        | nil => exact .spaces 0 (by simp) .nil
        | other solid runs => exact .spaces 0 (by simpa using solid) (.other solid runs)
        | spaces count ends runs => exact .spaces (count + 1) ends runs
      · exact .other space (runs rest)

/-- No blank and no break stands in front. -/
def Solid (cs : List Char) : Prop :=
  ∀ c, cs.head? = some c → isSpaceOrTab c = false ∧ isBreak c = false

/-- A gap of blanks only. -/
def Gap.ofBlanks (blanks : List Char) : Gap := ⟨blanks, [], [], false⟩

/-- Spaces are read up to what is solid. -/
theorem Gap.read_spaces {tabFloor line : Nat} {rest : List Char} (solid : Solid rest) :
    ∀ {count budget index column : Nat} {blanks : List Char}, count < budget →
      Gap.read tabFloor budget (.ofBlanks blanks)
          ⟨List.replicate count ' ' ++ rest, index, line, column⟩ =
        some (.ofBlanks (blanks ++ List.replicate count ' '),
          ⟨rest, index + count, line, column + count⟩)
  | 0, budget + 1, index, column, blanks, _ => by
      rw [List.replicate_zero, List.append_nil, List.nil_append, Gap.read]
      cases rest with
      | nil => rfl
      | cons c rest =>
          obtain ⟨noBlank, noBreak⟩ := solid c rfl
          simp [Cursor.at?, noBlank, noBreak]
  | count + 1, budget + 1, index, column, blanks, enough => by
      have more := @Gap.read_spaces tabFloor line rest solid count budget (index + 1) (column + 1)
        (blanks ++ [' ']) (by omega)
      have moved : blanks ++ List.replicate (count + 1) ' ' =
          blanks ++ [' '] ++ List.replicate count ' ' := by
        rw [List.replicate_succ, List.append_assoc, List.cons_append, List.nil_append]
      rw [moved, show index + (count + 1) = index + 1 + count by omega,
        show column + (count + 1) = column + 1 + count by omega, ← more]
      rfl

/-! ## Escapes -/

open Printer

theorem hexValue?_hexDigit : ∀ n, n < 16 → hexValue? (Json.hexDigit n).toUpper = some n := by
  decide

theorem hexDigits_succ (count n : Nat) :
    hexDigits (count + 1) n =
      hexDigits count (n / 16) ++ [(Json.hexDigit (n % 16)).toUpper] := by
  rw [hexDigits, List.range_succ, List.map_append, hexDigits]
  congr 1
  · refine List.map_congr_left fun place member => ?_
    have below : place < count := List.mem_range.mp member
    rw [show 4 * (count + 1 - 1 - place) = 4 + 4 * (count - 1 - place) by omega,
      Nat.shiftRight_add, Nat.shiftRight_eq_div_pow n 4]
  · simp

theorem length_hexDigits (count n : Nat) : (hexDigits count n).length = count := by
  simp [hexDigits]

/-- Enough digits of a number are read as the number. -/
theorem hexNumber?_hexDigits :
    ∀ {count n : Nat}, n < 16 ^ count → hexNumber? (hexDigits count n) = some n
  | 0, n, small => by
      obtain rfl : n = 0 := by omega
      rfl
  | count + 1, n, small => by
      have front := @hexNumber?_hexDigits count (n / 16) (by rw [Nat.pow_succ] at small; omega)
      have last := hexValue?_hexDigit (n % 16) (by omega)
      have value : n / 16 * 16 + n % 16 = n := by omega
      rw [hexNumber?] at front ⊢
      rw [hexDigits_succ, List.foldlM_append, front]
      simp [last, value]

theorem codePoint?_toNat (c : Char) : codePoint? c.toNat = some c := by
  have valid : c.toNat.isValidChar := c.valid
  rw [codePoint?, if_pos valid, Char.ofNat_toNat]

theorem readEscape_letter {letter c : Char} (given : escape? letter = some c)
    (single : escapeWidth? letter = none) (rest : List Char) (index line column : Nat) :
    ∃ later after, readEscape ⟨letter :: rest, index, line, column⟩ =
      some (c, ⟨rest, later, line, after + 1⟩) := by
  simp [readEscape, Cursor.at?, single, given, Cursor.step]

theorem steps_append (cs : List Char) :
    ∀ (rest : List Char) (index line column : Nat),
      ∃ later, Cursor.steps cs.length ⟨cs ++ rest, index, line, column⟩ =
        ⟨rest, later, line, column + cs.length⟩ := by
  induction cs with
  | nil => exact fun rest index line column => ⟨index, rfl⟩
  | cons c cs more =>
      intro rest index line column
      obtain ⟨later, moved⟩ := more rest (index + c.utf8Size) line (column + 1)
      refine ⟨later, ?_⟩
      rw [List.length_cons, show column + (cs.length + 1) = column + 1 + cs.length by omega,
        ← moved]
      rfl

theorem readEscape_number {letter : Char} {count : Nat} (c : Char)
    (wide : escapeWidth? letter = some count) (small : c.toNat < 16 ^ count) (rest : List Char)
    (index line column : Nat) :
    ∃ later after, readEscape
        ⟨letter :: hexDigits count c.toNat ++ rest, index, line, column⟩ =
      some (c, ⟨rest, later, line, after + 1⟩) := by
  obtain ⟨later, moved⟩ := steps_append (letter :: hexDigits count c.toNat) rest index line column
  rw [List.length_cons, length_hexDigits] at moved
  have digits : (hexDigits count c.toNat ++ rest).take count = hexDigits count c.toNat :=
    List.take_left' (length_hexDigits count c.toNat)
  refine ⟨later, column + count, ?_⟩
  rw [List.cons_append] at moved ⊢
  have next : (⟨letter :: (hexDigits count c.toNat ++ rest), index, line, column⟩ : Cursor).at? 0 =
      some letter := rfl
  simp only [readEscape, next, wide, List.drop_succ_cons, List.drop_zero, digits,
    length_hexDigits, if_true, hexNumber?_hexDigits small, codePoint?_toNat, moved, bind,
    Option.bind, pure, Nat.add_assoc]

theorem known_escapeLetters : ∀ entry ∈ escapeLetters,
    escape? entry.2 = some (Char.ofNat entry.1) ∧ escapeWidth? entry.2 = none ∧
      isBreak entry.2 = false := by
  decide

/-- What is written for a character after a backslash is read as the character. -/
theorem readEscape_escape (c : Char) :
    ∃ letter more, escape c = '\\' :: letter :: more ∧ isBreak letter = false ∧
      ∀ rest index line column, ∃ later after,
        readEscape ⟨letter :: more ++ rest, index, line, column⟩ =
          some (c, ⟨rest, later, line, after + 1⟩) := by
  simp only [escape]
  split
  · rename_i letter found
    obtain ⟨before, after, shape, _⟩ := List.lookup_eq_some_iff.mp found
    obtain ⟨value, single, noBreak⟩ := known_escapeLetters (c.toNat, letter) (by simp [shape])
    rw [Char.ofNat_toNat] at value
    exact ⟨letter, [], rfl, noBreak, readEscape_letter value single⟩
  · split
    · rename_i small
      exact ⟨'x', _, rfl, by decide, readEscape_number c (by decide) (by omega)⟩
    · split
      · rename_i small
        exact ⟨'u', _, rfl, by decide, readEscape_number c (by decide) (by omega)⟩
      · have valid : c.toNat < 0xD800 ∨ 0xDFFF < c.toNat ∧ c.toNat < 0x110000 := c.valid
        exact ⟨'U', _, rfl, by decide, readEscape_number c (by decide) (by omega)⟩

/-! ## Quoted scalars -/

/-- Between quotes some characters are read as one character. -/
structure Spelled (double : Bool) (spelling : List Char) (c : Char) : Prop where
  /-- They do not go on with a gap. -/
  solid : ∀ rest, Solid (spelling ++ rest)
  read : ∀ budget text rest index line column, ∃ later after,
    readQuoted double (budget + 1) text ⟨spelling ++ rest, index, line, column + 1⟩ =
      readQuoted double budget (text ++ [c]) ⟨rest, later, line, after + 1⟩

theorem isAnyMarker_of_column {rest : List Char} {index line column : Nat} :
    (⟨rest, index, line, column + 1⟩ : Cursor).isAnyMarker = false := by
  simp [Cursor.isAnyMarker, Cursor.isMarker]

/-- A character that means nothing between quotes stands for itself. -/
theorem spelled_self {double : Bool} {c : Char} (noBlank : isSpaceOrTab c = false)
    (noBreak : isBreak c = false) (single : double = false → c ≠ '\x27')
    (noQuote : double = true → c ≠ '"') (noEscape : double = true → c ≠ '\\') :
    Spelled double [c] c where
  solid := by
    rintro rest _ ⟨⟩
    exact ⟨noBlank, noBreak⟩
  read := by
    intro budget text rest index line column
    refine ⟨index + c.utf8Size, column + 1, ?_⟩
    cases double with
    | false => simp [readQuoted, Cursor.at?, isAnyMarker_of_column, single, noBlank, noBreak,
        Cursor.step]
    | true => simp [readQuoted, Cursor.at?, isAnyMarker_of_column, noQuote, noEscape, noBlank,
        noBreak, Cursor.step]

/-- In single quotes a quote is written twice. -/
theorem spelled_quote : Spelled false ['\x27', '\x27'] '\x27' where
  solid := by
    rintro rest _ ⟨⟩
    decide
  read := by
    intro budget text rest index line column
    refine ⟨index + '\x27'.utf8Size + '\x27'.utf8Size, column + 1 + 1, ?_⟩
    simp [readQuoted, Cursor.at?, Cursor.has, isAnyMarker_of_column, Cursor.steps, Cursor.step]

theorem spelled_escape (c : Char) : Spelled true (escape c) c := by
  obtain ⟨letter, more, shape, noBreak, reads⟩ := readEscape_escape c
  rw [shape]
  refine ⟨?_, ?_⟩
  · rintro rest _ ⟨⟩
    decide
  · intro budget text rest index line column
    obtain ⟨later, after, read⟩ := reads rest (index + '\\'.utf8Size) line (column + 1 + 1)
    refine ⟨later, after, ?_⟩
    rw [List.cons_append] at read
    simp [readQuoted, Cursor.at?, isAnyMarker_of_column, Cursor.step, Cursor.next, noBreak, read]

def quoteMark (double : Bool) : Char :=
  if double then '"' else '\x27'

theorem solid_quoteMark (double : Bool) (rest : List Char) :
    Solid (quoteMark double :: rest) := by
  rintro _ ⟨⟩
  cases double <;> decide

theorem readQuoted_end {double : Bool} {tail : List Char} (single : tail.head? ≠ some '\x27')
    (budget : Nat) (text : List Char) (index line column : Nat) :
    ∃ later after,
      readQuoted double (budget + 1) text ⟨quoteMark double :: tail, index, line, column + 1⟩ =
        some (text, ⟨tail, later, line, after + 1⟩) := by
  refine ⟨index + (quoteMark double).utf8Size, column + 1, ?_⟩
  cases double with
  | true => simp [readQuoted, quoteMark, Cursor.at?, isAnyMarker_of_column, Cursor.step]
  | false =>
      have alone : tail[0]? ≠ some '\x27' := by rwa [List.head?_eq_getElem?] at single
      simp [readQuoted, quoteMark, Cursor.at?, Cursor.has, isAnyMarker_of_column, Cursor.step,
        alone]

theorem solid_flatMap {double : Bool} {spell : Char → List Char} {cs : List Char}
    (each : ∀ c ∈ cs, c ≠ ' ' → Spelled double (spell c) c) (head : cs.head? ≠ some ' ')
    (tail : List Char) : Solid (cs.flatMap spell ++ quoteMark double :: tail) := by
  cases cs with
  | nil => exact solid_quoteMark double tail
  | cons c rest =>
      have spelled := each c List.mem_cons_self (by simpa using head)
      rw [List.flatMap_cons, List.append_assoc]
      exact spelled.solid _

theorem readQuoted_space (double : Bool) (budget : Nat) (text rest : List Char)
    (index line column : Nat) :
    readQuoted double (budget + 1) text ⟨' ' :: rest, index, line, column + 1⟩ =
      (Gap.read 0 (budget + 1) .none ⟨' ' :: rest, index, line, column + 1⟩).bind
        fun (gap, after) => readQuoted double budget (text ++ gap.join) after := by
  have blank : isSpaceOrTab ' ' = true := by decide
  simp [readQuoted, Cursor.at?, isAnyMarker_of_column, blank]

/-- **A text that is spelled out between quotes is read as the text.** -/
theorem readQuoted_spelled {double : Bool} {spell : Char → List Char} (space : spell ' ' = [' '])
    {tail : List Char} (single : tail.head? ≠ some '\x27') {cs : List Char}
    (each : ∀ c ∈ cs, c ≠ ' ' → Spelled double (spell c) c) :
    ∀ {budget : Nat} (text : List Char) (index line column : Nat), cs.length < budget →
      ∃ later after,
        readQuoted double budget text
            ⟨cs.flatMap spell ++ quoteMark double :: tail, index, line, column + 1⟩ =
          some (text ++ cs, ⟨tail, later, line, after + 1⟩) := by
  induction runs cs with
  | nil =>
      intro budget text index line column enough
      obtain ⟨left, rfl⟩ : ∃ left, budget = left + 1 := ⟨budget - 1, by omega⟩
      rw [List.append_nil]
      exact readQuoted_end single left text index line column
  | @other c rest solid _ read =>
      intro budget text index line column enough
      obtain ⟨left, rfl⟩ : ∃ left, budget = left + 1 := ⟨budget - 1, by omega⟩
      obtain ⟨own, others⟩ := List.forall_mem_cons.mp each
      obtain ⟨between, column', first⟩ := (own solid).read left text
        (rest.flatMap spell ++ quoteMark double :: tail) index line column
      obtain ⟨later, after, more⟩ := read others (text ++ [c]) between line column'
        (by simpa using enough)
      refine ⟨later, after, ?_⟩
      rw [List.flatMap_cons, List.append_assoc, first, more, List.append_assoc]
      rfl
  | @spaces count rest ends _ read =>
      intro budget text index line column enough
      obtain ⟨left, rfl⟩ : ∃ left, budget = left + 1 := ⟨budget - 1, by omega⟩
      rw [List.length_append, List.length_replicate] at enough
      have others := fun c member => each c (List.mem_append_right _ member)
      have blanks : (List.replicate (count + 1) ' ').flatMap spell =
          List.replicate (count + 1) ' ' := by
        rw [List.flatMap_replicate, space]
        simp
      have gap := @Gap.read_spaces 0 line _ (solid_flatMap others ends tail) (count + 1) (left + 1)
        index (column + 1) [] (by omega)
      obtain ⟨later, after, more⟩ := @read others left (text ++ List.replicate (count + 1) ' ')
        (index + (count + 1)) line (column + (count + 1)) (by omega)
      refine ⟨later, after, ?_⟩
      rw [List.flatMap_append, blanks, List.append_assoc, ← List.append_assoc text, ← more]
      rw [List.replicate_succ, List.cons_append] at gap ⊢
      rw [readQuoted_space]
      change (Gap.read _ _ (.ofBlanks []) _).bind _ = _
      rw [gap, Option.bind_some, List.nil_append,
        show column + 1 + (count + 1) = column + (count + 1) + 1 by omega]
      rfl

theorem Spelled.ne_nil {double : Bool} {spelling : List Char} {c : Char}
    (spelled : Spelled double spelling c) : spelling ≠ [] := by
  rintro rfl
  exact absurd (spelled.solid [' '] ' ' rfl).1 (by decide)

theorem length_le_spelled {double : Bool} {spell : Char → List Char} (space : spell ' ' = [' '])
    {cs : List Char} (each : ∀ c ∈ cs, c ≠ ' ' → Spelled double (spell c) c) :
    cs.length ≤ (cs.flatMap spell).length := by
  induction cs with
  | nil => exact Nat.zero_le _
  | cons c rest shorter =>
      obtain ⟨own, others⟩ := List.forall_mem_cons.mp each
      have filled : spell c ≠ [] := by
        by_cases blank : c = ' '
        · simp [blank, space]
        · exact (own blank).ne_nil
      have first := List.length_pos_iff.mpr filled
      have more := shorter others
      rw [List.flatMap_cons, List.length_append, List.length_cons]
      omega

/-- A quoted text that ends its line. -/
theorem readQuoted_of_line {double : Bool} {spell : Char → List Char} (space : spell ' ' = [' '])
    {cs : List Char} (each : ∀ c ∈ cs, c ≠ ' ' → Spelled double (spell c) c) (rest : List Char)
    {budget : Nat} (enough : (cs.flatMap spell).length < budget) (index line column : Nat) :
    ∃ later after,
      readQuoted double budget []
          ⟨cs.flatMap spell ++ quoteMark double :: '\n' :: rest, index, line, column + 1⟩ =
        some (cs, ⟨'\n' :: rest, later, line, after⟩) := by
  have short := length_le_spelled space each
  obtain ⟨later, after, read⟩ := @readQuoted_spelled double spell space ('\n' :: rest) (by simp) cs
    each budget [] index line column (by omega)
  exact ⟨later, after + 1, read⟩

/-! ## Plain scalars -/

/-- Nothing in a text would end it as a plain scalar, whatever solid stands behind it. -/
structure Unended (cs : List Char) : Prop where
  inline : ∀ c ∈ cs, isBreak c = false ∧ c ≠ '\t'
  noValue : hasNeighbours (· = ':') (fun c => Printer.isGap (some c)) cs = false
  noComment : hasNeighbours (fun c => Printer.isGap (some c)) (· = '#') cs = false
  noLastColon : cs.getLast? ≠ some ':'
  noLastSpace : cs.getLast? ≠ some ' '

theorem hasNeighbours_tail {first second : Char → Bool} {c : Char} {cs : List Char}
    (none : hasNeighbours first second (c :: cs) = false) :
    hasNeighbours first second cs = false := by
  cases cs with
  | nil => rfl
  | cons next rest => exact (Bool.or_eq_false_iff.mp none).2

theorem getLast?_tail {c last : Char} {cs : List Char} (other : (c :: cs).getLast? ≠ some last) :
    cs.getLast? ≠ some last := by
  cases cs with
  | nil => simp
  | cons next rest => rwa [List.getLast?_cons_cons] at other

theorem Unended.tail {c : Char} {cs : List Char} (unended : Unended (c :: cs)) : Unended cs where
  inline := fun other member => unended.inline other (List.mem_cons_of_mem c member)
  noValue := hasNeighbours_tail unended.noValue
  noComment := hasNeighbours_tail unended.noComment
  noLastColon := getLast?_tail unended.noLastColon
  noLastSpace := getLast?_tail unended.noLastSpace

/-- Spaces in front are followed by something else, which is no number sign. -/
theorem Unended.after_spaces :
    ∀ {count : Nat} {rest : List Char}, Unended (List.replicate (count + 1) ' ' ++ rest) →
      Unended rest ∧ rest ≠ [] ∧ rest.head? ≠ some '#'
  | 0, rest, unended => by
      refine ⟨unended.tail, ?_, ?_⟩
      · rintro rfl
        exact unended.noLastSpace rfl
      · intro sign
        obtain ⟨more, rfl⟩ := List.head?_eq_some_iff.mp sign
        exact absurd unended.noComment (by simp [hasNeighbours, Printer.isGap, isSpaceOrTab])
  | count + 1, rest, unended => Unended.after_spaces unended.tail

section Steps

variable {floor budget index line column : Nat} {text rest : List Char} {gap : Gap}

/-- A character that does not end a plain scalar is read as itself. -/
theorem readPlain_char {c : Char} (noBlank : isSpaceOrTab c = false) (noBreak : isBreak c = false)
    (noValue : c = ':' → (⟨c :: rest, index, line, column⟩ : Cursor).isGap 1 = false)
    (noComment : gap ≠ .none → 0 < column ∧ c ≠ '#') :
    readPlain false floor (budget + 1) text gap ⟨c :: rest, index, line, column⟩ =
      readPlain false floor budget (text ++ gap.join ++ [c]) .none
        ⟨rest, index + c.utf8Size, line, column + 1⟩ := by
  have blank : (⟨c :: rest, index, line, column⟩ : Cursor).next
      (fun c => isSpaceOrTab c || isBreak c) = false := by
    simp [Cursor.next, Cursor.at?, noBlank, noBreak]
  have goesOn : endsPlain false ⟨c :: rest, index, line, column⟩ = false := by
    by_cases colon : c = ':'
    · simp [endsPlain, noValue colon]
    · simp [endsPlain, Cursor.has, Cursor.at?, colon]
  have noEnd : ¬(gap ≠ .none ∧ ((⟨c :: rest, index, line, column⟩ : Cursor).isAnyMarker ||
      (⟨c :: rest, index, line, column⟩ : Cursor).has '#' 0) = true) := by
    rintro ⟨wide, ends⟩
    obtain ⟨inside, other⟩ := noComment wide
    have column_ne : column ≠ 0 := by omega
    simp [Cursor.isAnyMarker, Cursor.isMarker, Cursor.has, Cursor.at?, column_ne, other] at ends
  rw [readPlain]
  simp only [blank, goesOn, if_neg noEnd, isStrayColon]
  rfl

theorem readPlain_space :
    readPlain false floor (budget + 1) text gap ⟨' ' :: rest, index, line, column⟩ =
      (Gap.read floor (budget + 1) gap ⟨' ' :: rest, index, line, column⟩).bind
        fun (wider, after) =>
          if after.column < floor then some ⟨text, after, wider.broken⟩
          else readPlain false floor budget text wider after := by
  have blank : (⟨' ' :: rest, index, line, column⟩ : Cursor).next
      (fun c => isSpaceOrTab c || isBreak c) = true := by
    rfl
  rw [readPlain]
  simp [Cursor.isEnd, blank, bind, Option.bind, pure]

/-- A line that starts further out ends a plain scalar. -/
theorem readPlain_line (solid : Solid rest) (outside : 0 < floor) (enough : 0 < budget) :
    readPlain false floor (budget + 1) text .none ⟨'\n' :: rest, index, line, column⟩ =
      some ⟨text, ⟨rest, index + '\n'.utf8Size, line + 1, 0⟩, true⟩ := by
  obtain ⟨left, rfl⟩ : ∃ left, budget = left + 1 := ⟨budget - 1, by omega⟩
  have blank : (⟨'\n' :: rest, index, line, column⟩ : Cursor).next
      (fun c => isSpaceOrTab c || isBreak c) = true := rfl
  have gap : Gap.read floor (left + 2) .none ⟨'\n' :: rest, index, line, column⟩ =
      some (⟨[], ['\n'], [], true⟩, ⟨rest, index + '\n'.utf8Size, line + 1, 0⟩) := by
    have next : Gap.read floor (left + 2) .none ⟨'\n' :: rest, index, line, column⟩ =
        Gap.read floor (left + 1) ⟨[], ['\n'], [], true⟩
          ⟨rest, index + '\n'.utf8Size, line + 1, 0⟩ := rfl
    rw [next, Gap.read]
    cases rest with
    | nil => rfl
    | cons c rest =>
        obtain ⟨noBlank, noBreak⟩ := solid c rfl
        simp [Cursor.at?, noBlank, noBreak]
  rw [readPlain]
  simp [Cursor.isEnd, blank, gap, outside]

/-- A colon in front of a gap ends a plain scalar. -/
theorem readPlain_colon (ends : (⟨':' :: rest, index, line, column⟩ : Cursor).isGap 1 = true) :
    readPlain false floor (budget + 1) text .none ⟨':' :: rest, index, line, column⟩ =
      some ⟨text, ⟨':' :: rest, index, line, column⟩, false⟩ := by
  have blank : (⟨':' :: rest, index, line, column⟩ : Cursor).next
      (fun c => isSpaceOrTab c || isBreak c) = false := rfl
  have done : endsPlain false ⟨':' :: rest, index, line, column⟩ = true := by
    simp [endsPlain, ends, Cursor.has, Cursor.at?]
  rw [readPlain]
  simp [Cursor.isEnd, blank, isStrayColon, done, Gap.none]

end Steps

theorem isSpaceOrTab_eq_false {c : Char} (noSpace : c ≠ ' ') (noTab : c ≠ '\t') :
    isSpaceOrTab c = false := by
  simp [isSpaceOrTab, noSpace, noTab]

/-- A colon that neither ends the text nor has a gap behind it. -/
theorem Unended.isGap_colon {rest : List Char} (unended : Unended (':' :: rest))
    (tail : List Char) (index line column : Nat) :
    (⟨':' :: (rest ++ tail), index, line, column⟩ : Cursor).isGap 1 = false := by
  cases rest with
  | nil => exact absurd rfl unended.noLastColon
  | cons c rest =>
      have solid := (Bool.or_eq_false_iff.mp unended.noValue).1
      simp only [decide_true, Bool.true_and, Printer.isGap, Bool.or_eq_false_iff] at solid
      simp [Cursor.isGap, Cursor.at?, solid]

/-- **A plain text is read as itself**, and what stands behind it is read next. -/
theorem readPlain_append {floor line : Nat} (tail : List Char) {cs : List Char} :
    Unended cs → ∀ {budget index column : Nat} (text : List Char) {blanks : List Char},
      (blanks ≠ [] → cs ≠ [] ∧ cs.head? ≠ some '#' ∧ 0 < column) → floor ≤ column + 1 →
      cs.length ≤ budget →
      ∃ left later, budget ≤ left + cs.length ∧ later ≤ index + 4 * cs.length ∧
        readPlain false floor budget text (.ofBlanks blanks) ⟨cs ++ tail, index, line, column⟩ =
          readPlain false floor left (text ++ blanks ++ cs) .none
            ⟨tail, later, line, column + cs.length⟩ := by
  induction runs cs with
  | nil =>
      intro _ budget index column text blanks inside _ _
      obtain rfl : blanks = [] := Decidable.byContradiction fun wide => (inside wide).1 rfl
      refine ⟨budget, index, Nat.le_refl _, Nat.le_refl _, ?_⟩
      rw [List.append_nil, List.append_nil]
      rfl
  | @other c rest solid _ read =>
      intro unended budget index column text blanks inside deep enough
      obtain ⟨left, rfl⟩ : ∃ left, budget = left + 1 := ⟨budget - 1, by simp at enough; omega⟩
      obtain ⟨noBreak, noTab⟩ := unended.inline c List.mem_cons_self
      have first := @readPlain_char floor left index line column text (rest ++ tail)
        (.ofBlanks blanks) c (isSpaceOrTab_eq_false solid noTab) noBreak
        (by rintro rfl; exact unended.isGap_colon tail index line column)
        (by
          intro wide
          have filled : blanks ≠ [] := by
            rintro rfl
            exact wide rfl
          obtain ⟨_, noSign, deep⟩ := inside filled
          exact ⟨deep, by simpa using noSign⟩)
      obtain ⟨last, later, spent, near, more⟩ :=
        @read unended.tail left (index + c.utf8Size) (column + 1) (text ++ blanks ++ [c]) []
          (by simp) (by omega) (by simpa using enough)
      have width := c.utf8Size_le_four
      refine ⟨last, later, by simp only [List.length_cons]; omega,
        by simp only [List.length_cons]; omega, ?_⟩
      rw [List.cons_append, first]
      rw [List.append_nil, List.append_assoc _ [c]] at more
      rw [List.length_cons, show column + (rest.length + 1) = column + 1 + rest.length by omega]
      exact more
  | @spaces count rest ends _ read =>
      intro unended budget index column text blanks inside deep enough
      obtain ⟨left, rfl⟩ : ∃ left, budget = left + 1 := ⟨budget - 1, by simp at enough; omega⟩
      obtain ⟨others, filled, noSign⟩ := unended.after_spaces
      have more_left : 0 < rest.length := List.length_pos_iff.mpr filled
      rw [List.length_append, List.length_replicate] at enough
      have solid : Solid (rest ++ tail) := by
        obtain ⟨c, more, rfl⟩ := List.exists_cons_of_ne_nil filled
        rintro _ ⟨⟩
        obtain ⟨noBreak, noTab⟩ := others.inline c List.mem_cons_self
        exact ⟨isSpaceOrTab_eq_false (by simpa using ends) noTab, noBreak⟩
      have gap := @Gap.read_spaces floor line _ solid (count + 1) (left + 1) index column blanks
        (by omega)
      obtain ⟨last, later, spent, near, more⟩ := @read others left (index + (count + 1))
        (column + (count + 1)) text (blanks ++ List.replicate (count + 1) ' ')
        (fun _ => ⟨filled, noSign, by omega⟩) (by omega) (by omega)
      have reached : ¬column + (count + 1) < floor := by omega
      have length : (List.replicate (count + 1) ' ' ++ rest).length = count + 1 + rest.length := by
        rw [List.length_append, List.length_replicate]
      refine ⟨last, later, by omega, by omega, ?_⟩
      have whole : text ++ (blanks ++ List.replicate (count + 1) ' ') ++ rest =
          text ++ blanks ++ (List.replicate (count + 1) ' ' ++ rest) := by
        simp only [List.append_assoc]
      rw [← whole, length, ← Nat.add_assoc column, ← more, List.append_assoc]
      rw [List.replicate_succ, List.cons_append] at gap ⊢
      rw [readPlain_space, gap, Option.bind_some]
      exact if_neg reached

/-- A plain text that ends its line. -/
theorem readPlain_of_line {cs rest : List Char} (unended : Unended cs) (solid : Solid rest)
    (index line column : Nat) :
    ∃ later, readPlain false 1 ((cs ++ '\n' :: rest).length + 1) [] .none
        ⟨cs ++ '\n' :: rest, index, line, column⟩ =
      some ⟨cs, ⟨rest, later, line + 1, 0⟩, true⟩ := by
  obtain ⟨left, later, enough, _, read⟩ := @readPlain_append 1 line ('\n' :: rest) cs unended
    ((cs ++ '\n' :: rest).length + 1) index column [] [] (by simp) (by omega)
    (by simp only [List.length_append]; omega)
  obtain ⟨spare, rfl⟩ : ∃ spare, left = spare + 2 := by
    simp only [List.length_append, List.length_cons] at enough
    exact ⟨left - 2, by omega⟩
  rw [readPlain_line solid (by omega) (by omega)] at read
  exact ⟨_, read⟩

/-- A plain text in front of a colon and a gap. -/
theorem readPlain_of_key {cs rest : List Char} (unended : Unended cs)
    (gap : ∀ index line column, (⟨':' :: rest, index, line, column⟩ : Cursor).isGap 1 = true)
    {floor : Nat} (index line column : Nat) (deep : floor ≤ column + 1) :
    ∃ later, later ≤ index + 4 * cs.length ∧
      readPlain false floor ((cs ++ ':' :: rest).length + 1) [] .none
          ⟨cs ++ ':' :: rest, index, line, column⟩ =
        some ⟨cs, ⟨':' :: rest, later, line, column + cs.length⟩, false⟩ := by
  obtain ⟨left, later, enough, near, read⟩ := @readPlain_append floor line (':' :: rest) cs unended
    ((cs ++ ':' :: rest).length + 1) index column [] [] (by simp) deep
    (by simp only [List.length_append]; omega)
  obtain ⟨spare, rfl⟩ : ∃ spare, left = spare + 1 := by
    simp only [List.length_append, List.length_cons] at enough
    exact ⟨left - 1, by omega⟩
  rw [readPlain_colon (gap _ _ _)] at read
  exact ⟨later, near, read⟩

end DependencyAudit.Yaml
