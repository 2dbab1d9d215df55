/-
# DependencyAudit.Proofs.YamlLines -- lines of YAML to tokens

Between lines the lexer is always in the same state, save for what is left and what has been
read: so some lines come to some tokens, whatever lines stand behind them (`Lines`).  An item is
a line (`lines_item`), and a list under a key comes to the tokens of its key and of its items
(`lines_listing`); the key puts in the start of the mapping if none has begun.  At the end of
the text the mapping ends (`tokens?_listings`).
-/
import DependencyAudit.Proofs.YamlSteps

namespace DependencyAudit.Yaml

set_option autoImplicit false

open Printer

namespace Lexer

section Step

variable {rest : List Char} {index line column : Nat} {tokens : List Token}
  {opened allowed : Bool} {place : Option KeyPlace}

/-! ## Keys -/

/-- A short word of letters. -/
structure Bare (key : List Char) : Prop where
  nonempty : key ≠ []
  letters : ∀ c ∈ key, c.isAlpha = true
  short : key.length ≤ 256

theorem ne_of_isAlpha {c mark : Char} (letter : c.isAlpha = true) (other : mark.isAlpha = false) :
    c ≠ mark := by
  rintro rfl
  rw [letter] at other
  cases other

theorem toNat_of_isAlpha {c : Char} (letter : c.isAlpha = true) :
    65 ≤ c.toNat ∧ c.toNat ≤ 122 := by
  rcases Bool.or_eq_true_iff.mp letter with upper | lower
  · obtain ⟨first, last⟩ := of_decide_eq_true upper
    have low : 65 ≤ c.toNat := UInt32.le_iff_toNat_le.mp first
    have high : c.toNat ≤ 90 := UInt32.le_iff_toNat_le.mp last
    omega
  · obtain ⟨first, last⟩ := Bool.and_eq_true_iff.mp lower
    have low : 97 ≤ c.toNat := UInt32.le_iff_toNat_le.mp (of_decide_eq_true first)
    have high : c.toNat ≤ 122 := UInt32.le_iff_toNat_le.mp (of_decide_eq_true last)
    omega

theorem solid_of_isAlpha {c : Char} (letter : c.isAlpha = true) :
    isSpaceOrTab c = false ∧ isBreak c = false ∧ isByteOrderMark c = false ∧
      isAllowed c = true := by
  have range := toNat_of_isAlpha letter
  have other : ∀ mark : Char, mark.isAlpha = false → c ≠ mark := fun mark => ne_of_isAlpha letter
  refine ⟨?_, ?_, ?_, ?_⟩
  · simp [isSpaceOrTab, other ' ' (by decide), other '\t' (by decide)]
  · simp only [isBreak, other '\r' (by decide), other '\n' (by decide), Bool.or_eq_false_iff,
      decide_eq_false_iff_not, not_false_eq_true, true_and]
    omega
  · simp only [isByteOrderMark, decide_eq_false_iff_not]
    omega
  · simp only [isAllowed, Bool.or_eq_true, Bool.and_eq_true, decide_eq_true_eq]
    omega

theorem isIndicator_of_isAlpha {c : Char} (letter : c.isAlpha = true) :
    Printer.isIndicator c = false ∧ isGapIndicator c = false := by
  have marks : "#,[]\x7b\x7d&*!|>\x27\"%@\x60".toList.any Char.isAlpha = false := by decide
  constructor
  · refine Bool.eq_false_iff.mpr fun listed => ?_
    exact List.any_eq_false.mp marks c (List.contains_iff_mem.mp listed) letter
  · simp [isGapIndicator, ne_of_isAlpha letter (by decide : '?'.isAlpha = false),
      ne_of_isAlpha letter (by decide : ':'.isAlpha = false),
      ne_of_isAlpha letter (by decide : '-'.isAlpha = false)]

/-- A word has no neighbours the first of which is a mark. -/
theorem hasNeighbours_of_not_first {first second : Char → Bool} {cs : List Char}
    (none : ∀ c ∈ cs, first c = false) : hasNeighbours first second cs = false := by
  induction cs with
  | nil => rfl
  | cons c rest none_rest =>
      obtain ⟨own, others⟩ := List.forall_mem_cons.mp none
      cases rest with
      | nil => rfl
      | cons d rest => rw [hasNeighbours, own, none_rest others, Bool.false_and, Bool.or_false]

theorem Bare.unended {key : List Char} (bare : Bare key) : Unended key where
  inline := fun c member => by
    have letter := bare.letters c member
    exact ⟨(solid_of_isAlpha letter).2.1, ne_of_isAlpha letter (by decide)⟩
  noValue := hasNeighbours_of_not_first fun c member =>
    decide_eq_false (ne_of_isAlpha (bare.letters c member) (by decide))
  noComment := hasNeighbours_of_not_first fun c member => by
    have letter := bare.letters c member
    obtain ⟨noBlank, noBreak, _⟩ := solid_of_isAlpha letter
    have noZero : c.toNat ≠ 0 := by
      have range := toNat_of_isAlpha letter
      omega
    simp [Printer.isGap, noBlank, noBreak, noZero]
  noLastColon := fun last =>
    ne_of_isAlpha (bare.letters ':' (List.mem_of_getLast? last)) (by decide) rfl
  noLastSpace := fun last =>
    ne_of_isAlpha (bare.letters ' ' (List.mem_of_getLast? last)) (by decide) rfl

theorem readFrom_colon {lexer : Lexer} (inside : lexer.cursor.column ≠ 0)
    (gap : lexer.cursor.isGap 1 = true) : lexer.readFrom ':' = lexer.readValue := by
  have noMarker : ∀ mark, lexer.cursor.isMarker mark = false :=
    fun mark => isMarker_eq_false (.inl inside)
  simp [readFrom, noMarker, gap]

/-- The tokens of a key; the first key starts the mapping as well. -/
def keyTokens (opened : Bool) (text : Token) : List Token :=
  (if opened then [] else [.blockMappingStart]) ++ [Token.key, text, .value]

/-- A colon behind a key puts in the tokens that the key began. -/
theorem readValue_inBlock {cursor here : Cursor} {text : Token} (first : cursor.column = 0) :
    (inBlock here (tokens ++ [text]) opened allowed
        (some (keyPlaceAt cursor tokens opened))).readValue =
      some (inBlock (here.steps 1)
        (tokens ++ keyTokens opened text) true false none) := by
  cases opened <;>
    simp [readValue, inBlock, insertAt, keyPlaceAt, roll, first, inFlow, mark, push, keyTokens]

/-- A key is read as a plain text, and its place is kept. -/
theorem next_of_key {key : List Char} (bare : Bare key)
    (gap : ∀ index line column, (⟨':' :: rest, index, line, column⟩ : Cursor).isGap 1 = true) :
    ∃ later, later ≤ index + 4 * key.length ∧
      (inBlock ⟨key ++ ':' :: rest, index, line, 0⟩ tokens opened true none).next =
        some (inBlock ⟨':' :: rest, later, line, 0 + key.length⟩
          (tokens ++ [Token.scalar key .plain]) opened false
          (some (keyPlaceAt ⟨key ++ ':' :: rest, index, line, 0⟩ tokens opened))) := by
  obtain ⟨later, near, read⟩ := readPlain_of_key bare.unended gap index line 0
    (by cases opened <;> decide : opened.toNat ≤ 0 + 1)
  obtain ⟨c, more, rfl⟩ := List.exists_cons_of_ne_nil bare.nonempty
  have letter := bare.letters c List.mem_cons_self
  obtain ⟨noBlank, noBreak, noMark, _⟩ := solid_of_isAlpha letter
  have solid : Solid (c :: more) := by
    rintro _ ⟨⟩
    exact ⟨noBlank, noBreak⟩
  have free : startsIndicator (c :: more) = false := by
    simp [startsIndicator, isIndicator_of_isAlpha letter]
  refine ⟨later, near, ?_⟩
  rw [List.cons_append, next_of_plain solid free
    (.inr ⟨ne_of_isAlpha letter (by decide), ne_of_isAlpha letter (by decide), noMark⟩)]
  exact readPlain_inBlock read

/-- A colon close behind a key puts in the mark of the key, and that of a value. -/
theorem next_of_colon {cursor : Cursor} {text : Token} (first : cursor.column = 0)
    (inside : column ≠ 0) (sameLine : cursor.line = line) (near : index ≤ cursor.index + 1024)
    (gap : (⟨':' :: rest, index, line, column⟩ : Cursor).isGap 1 = true) :
    (inBlock ⟨':' :: rest, index, line, column⟩ (tokens ++ [text]) opened false
        (some (keyPlaceAt cursor tokens opened))).next =
      some (inBlock ((⟨':' :: rest, index, line, column⟩ : Cursor).steps 1)
        (tokens ++ keyTokens opened text) true false none) := by
  have settled : Settled ⟨':' :: rest, index, line, column⟩ := by
    refine ⟨?_, by simp, fun start => absurd start inside⟩
    rintro _ ⟨⟩
    decide
  have fresh : isStale ⟨':' :: rest, index, line, column⟩ (keyPlaceAt cursor tokens opened) =
      false := by
    simp [isStale, keyPlaceAt, sameLine, near]
  have kept : refresh ⟨':' :: rest, index, line, column⟩
      (some (keyPlaceAt cursor tokens opened)) =
        some (some (keyPlaceAt cursor tokens opened)) := by
    simp [refresh, fresh]
  rw [next_of_char settled kept]
  exact (readFrom_colon inside gap).trans (readValue_inBlock first)

/-- A key comes to the mark of a key, its text and the mark of a value. -/
theorem leads_key {key : List Char} (bare : Bare key)
    (gap : ∀ index line column, (⟨':' :: rest, index, line, column⟩ : Cursor).isGap 1 = true) :
    ∃ later after, Leads
      (inBlock ⟨key ++ ':' :: rest, index, line, 0⟩ tokens opened true none)
      (inBlock ⟨rest, later, line, after⟩ (tokens ++ keyTokens opened (.scalar key .plain)) true
        false none) := by
  obtain ⟨later, near, name⟩ := @next_of_key rest index line tokens opened _ bare gap
  have filled := List.length_pos_iff.mpr bare.nonempty
  have short := bare.short
  have colon := @next_of_colon rest later line (0 + key.length) tokens opened
    ⟨key ++ ':' :: rest, index, line, 0⟩ (.scalar key .plain) rfl (by omega) rfl
    (by simp only; omega) (gap _ _ _)
  have one := leads_of_next name (by simp [inBlock]; omega) (getLast?_scalar _ _)
  have two := leads_of_next colon (by simp [inBlock, Cursor.steps, Cursor.step])
    (by simp [inBlock, keyTokens])
  exact ⟨_, _, one.trans two⟩

/-! ## Items and brackets -/

/-- A dash in front of a space is the mark of an item. -/
theorem leads_entry :
    Leads (inBlock ⟨'-' :: ' ' :: rest, index, line, 0⟩ tokens true true none)
      (inBlock ⟨rest, index + '-'.utf8Size + ' '.utf8Size, line, 2⟩
        (tokens ++ [Token.blockEntry]) true true none) := by
  have settled : Settled ⟨'-' :: ' ' :: rest, index, line, 0⟩ := by
    refine ⟨?_, by simp, ?_⟩
    · rintro _ ⟨⟩
      decide
    · rintro _ _ ⟨⟩
      decide
  have entry : (inBlock ⟨'-' :: ' ' :: rest, index, line, 0⟩ tokens true true none).readFrom '-' =
      some (inBlock ⟨' ' :: rest, index + '-'.utf8Size, line, 1⟩ (tokens ++ [Token.blockEntry]) true
        true none) := by
    have blank : isSpaceOrTab ' ' = true := by decide
    simp [readFrom, inBlock, Cursor.isMarker, Cursor.has, Cursor.isGap, Cursor.at?, blank,
      readBlockEntry, rollHere, inFlow, roll, dropKeyPlace, mark, push, Cursor.steps, Cursor.step]
  have step := (next_of_char settled (rfl : refresh _ none = some none)).trans entry
  have reads := leads_of_next step (by simp [inBlock]) (by simp [inBlock])
  exact reads.trans leads_space

/-- Brackets with nothing in them, inside of a line. -/
theorem leads_brackets :
    ∃ later, Leads
      (inBlock ⟨' ' :: '[' :: ']' :: '\n' :: rest, index, line, column⟩ tokens true false none)
      (inBlock ⟨rest, later, line + 1, 0⟩
        (tokens ++ [Token.flowSequenceStart, .flowSequenceEnd]) true true none) := by
  have settled : ∀ mark : Char, mark = '[' ∨ mark = ']' → ∀ rest index column,
      Settled ⟨mark :: rest, index, line, column + 1⟩ := by
    rintro mark bracket rest index column
    refine ⟨?_, ?_, fun first => by cases first⟩
    · rintro _ ⟨⟩
      rcases bracket with rfl | rfl <;> decide
    · rcases bracket with rfl | rfl <;> simp
  let inside : Lexer := ⟨
    ⟨']' :: '\n' :: rest, index + ' '.utf8Size + '['.utf8Size, line, column + 2⟩,
    tokens ++ [Token.flowSequenceStart], 1, [0], true, none, [none]⟩
  have opens : (inBlock ⟨'[' :: ']' :: '\n' :: rest, index + ' '.utf8Size, line, column + 1⟩ tokens
      true false none).next = some inside := by
    rw [next_of_char (settled '[' (.inl rfl) _ _ _) (rfl : refresh _ none = some none)]
    simp [readFrom, inBlock, Cursor.isMarker, readFlowStart, saveKeyPlace, mark, push, Cursor.steps,
      Cursor.step, inside]
  have closes : inside.next = some (inBlock
      ⟨'\n' :: rest, index + ' '.utf8Size + '['.utf8Size + ']'.utf8Size, line, column + 3⟩
      (tokens ++ [Token.flowSequenceStart] ++ [Token.flowSequenceEnd]) true false none) := by
    have fresh : inside.forgetStale = some inside := rfl
    have current : inside.unroll (inside.cursor.column + 1) = inside := rfl
    rw [next, skipGap_of_settled (settled ']' (.inr rfl) _ _ _), fresh, Option.bind_eq_bind,
      Option.bind_some, current]
    change inside.readFrom ']' = _
    simp [readFrom, Cursor.isMarker, readFlowEnd, dropKeyPlace, mark, push, Cursor.steps,
      Cursor.step, inside, inBlock]
  have first := leads_of_next opens (by simp [inBlock, inside]) (by simp [inside])
  have second := leads_of_next closes (by simp [inBlock, inside]) (by simp [inBlock])
  rw [List.append_assoc] at second
  exact ⟨_, leads_space.trans (first.trans (second.trans leads_line))⟩

end Step

/-! ## Lines -/

/-- Some lines come to some tokens, whatever quiet line stands behind them. -/
def Lines (opened : Bool) (cs : List Char) (added : List Token) : Prop :=
  ∀ rest index line tokens, Quiet rest → ∃ later below,
    Leads (inBlock ⟨cs ++ rest, index, line, 0⟩ tokens opened true none)
      (inBlock ⟨rest, later, below, 0⟩ (tokens ++ added) true true none)

theorem lines_nil : Lines true [] [] := by
  intro rest index line tokens _
  rw [List.append_nil]
  exact ⟨index, line, .refl _⟩

theorem Lines.append {opened : Bool} {cs ds : List Char} {added more : List Token}
    (first : Lines opened cs added) (second : Lines true ds more)
    (quiet : ∀ rest, Quiet rest → Quiet (ds ++ rest)) :
    Lines opened (cs ++ ds) (added ++ more) := by
  intro rest index line tokens quietRest
  obtain ⟨between, middle, one⟩ := first (ds ++ rest) index line tokens (quiet rest quietRest)
  obtain ⟨later, below, two⟩ := second rest between middle (tokens ++ added) quietRest
  rw [List.append_assoc] at two ⊢
  exact ⟨later, below, one.trans two⟩

/-! ### Items -/

/-- The tokens of an item. -/
def itemTokens (text : String) : List Token :=
  [.blockEntry, .scalar text.toList (style text).read]

theorem lines_item {text : String} (inline : OneLine text) :
    Lines true (item text) (itemTokens text) := by
  intro rest index line tokens quiet
  obtain ⟨later, reads⟩ := @leads_scalar rest (index + '-'.utf8Size + ' '.utf8Size) line 0
    (tokens ++ [Token.blockEntry]) _ _ _ (onLine_scalar inline) quiet
  refine ⟨later, line + 1, ?_⟩
  rw [item_eq_line inline, itemTokens]
  simp only [List.cons_append, List.append_assoc, List.nil_append] at reads ⊢
  exact leads_entry.trans reads

theorem quiet_items {texts : List String} (inline : ∀ text ∈ texts, OneLine text)
    {rest : List Char} (quiet : Quiet rest) : Quiet (texts.flatMap item ++ rest) := by
  cases texts with
  | nil => exact quiet
  | cons text texts =>
      rw [List.flatMap_cons, item_eq_line (inline text List.mem_cons_self)]
      refine ⟨?_, by simp, ?_⟩
      · rintro _ ⟨⟩
        decide
      · rintro _ ⟨⟩
        decide

theorem lines_items {texts : List String}
    (inline : ∀ text ∈ texts, OneLine text) :
    Lines true (texts.flatMap item) (texts.flatMap itemTokens) := by
  induction texts with
  | nil => exact lines_nil
  | cons text texts more =>
      obtain ⟨own, others⟩ := List.forall_mem_cons.mp inline
      exact (lines_item own).append (more others) fun rest => quiet_items others

/-! ### Keys with their lists -/

/-- The tokens of a list. -/
def listTokens (texts : List String) : List Token :=
  if texts.isEmpty then [.flowSequenceStart, .flowSequenceEnd] else texts.flatMap itemTokens

/-- The tokens of a key with its list. -/
def fieldTokens (field : String × List String) : List Token :=
  .key :: .scalar field.1.toList .plain :: .value :: listTokens field.2

/-- A key of letters with a list of texts without line breaks. -/
structure Plainly (field : String × List String) : Prop where
  bare : Bare field.1.toList
  inline : ∀ text ∈ field.2, OneLine text

theorem quiet_listing {field : String × List String} (plainly : Plainly field) (rest : List Char) :
    Quiet (listing field.1 field.2 ++ rest) := by
  obtain ⟨c, more, shape⟩ := List.exists_cons_of_ne_nil plainly.bare.nonempty
  have letter := plainly.bare.letters c (by simp [shape])
  obtain ⟨noBlank, noBreak, noMark, _⟩ := solid_of_isAlpha letter
  obtain ⟨behind, whole⟩ : ∃ behind, listing field.1 field.2 ++ rest = c :: behind := by
    unfold listing
    split <;> simp [shape]
  rw [whole]
  refine ⟨?_, ?_, ?_⟩
  · rintro _ ⟨⟩
    exact ⟨noBlank, noBreak⟩
  · simp [ne_of_isAlpha letter (by decide : '#'.isAlpha = false)]
  · rintro _ ⟨⟩
    exact noMark

theorem lines_listing {field : String × List String} (plainly : Plainly field) (opened : Bool) :
    Lines opened (listing field.1 field.2)
      (keyTokens opened (.scalar field.1.toList .plain) ++ listTokens field.2) := by
  intro rest index line tokens quiet
  rw [listing, listTokens]
  split
  · obtain ⟨between, column, key⟩ := @leads_key (' ' :: '[' :: ']' :: '\n' :: rest) index line
      tokens opened _ plainly.bare fun _ _ _ => rfl
    obtain ⟨later, brackets⟩ := @leads_brackets rest between line column
      (tokens ++ keyTokens opened (.scalar field.1.toList .plain))
    refine ⟨later, line + 1, ?_⟩
    simpa using key.trans brackets
  · obtain ⟨between, column, key⟩ := @leads_key ('\n' :: (field.2.flatMap item ++ rest)) index line
      tokens opened _ plainly.bare fun _ _ _ => rfl
    obtain ⟨later, below, items⟩ := lines_items plainly.inline rest (between + '\n'.utf8Size)
      (line + 1) (tokens ++ keyTokens opened (.scalar field.1.toList .plain)) quiet
    refine ⟨later, below, ?_⟩
    simpa using key.trans (leads_line.trans items)

theorem quiet_listings {fields : List (String × List String)}
    (plainly : ∀ field ∈ fields, Plainly field) {rest : List Char} (quiet : Quiet rest) :
    Quiet ((fields.flatMap fun field => listing field.1 field.2) ++ rest) := by
  cases fields with
  | nil => exact quiet
  | cons field fields =>
      rw [List.flatMap_cons, List.append_assoc]
      exact quiet_listing (plainly field List.mem_cons_self) _

theorem lines_listings {fields : List (String × List String)}
    (plainly : ∀ field ∈ fields, Plainly field) :
    Lines true (fields.flatMap fun field => listing field.1 field.2)
      (fields.flatMap fieldTokens) := by
  induction fields with
  | nil => exact lines_nil
  | cons field fields more =>
      obtain ⟨own, others⟩ := List.forall_mem_cons.mp plainly
      exact (lines_listing own true).append (more others) fun rest => quiet_listings others

/-! ## Whole texts -/

/-- At the end of the text the mapping ends. -/
theorem run_end (budget index line : Nat) (tokens : List Token) :
    run (budget + 1) (inBlock ⟨[], index, line, 0⟩ tokens true true none) =
      some (tokens ++ [Token.blockEnd, .streamEnd]) := by
  have last : (inBlock ⟨[], index, line, 0⟩ tokens true true none).next =
      some (inBlock ⟨[], index, line, 0⟩ (tokens ++ [Token.blockEnd, .streamEnd])
        false false none) := by
    rw [next, skipGap_of_settled (quiet_nil.settled _ _ _), forgetStale_inBlock rfl]
    simp [inBlock, unroll, inFlow, endBlocks, Cursor.at?, readEnd, dropKeyPlace, mark, push,
      Cursor.steps]
  rw [run, last]
  simp [inBlock]

/-- **The tokens of keys with their lists**, at least one. -/
theorem tokens?_listings {field : String × List String} {fields : List (String × List String)}
    (plainly : ∀ each ∈ field :: fields, Plainly each) :
    tokens? ((field :: fields).flatMap fun field => listing field.1 field.2) =
      some (.blockMappingStart :: (field :: fields).flatMap fieldTokens ++
        [.blockEnd, .streamEnd]) := by
  obtain ⟨own, others⟩ := List.forall_mem_cons.mp plainly
  have whole : Lines false _ _ :=
    (lines_listing own false).append (lines_listings others) fun rest => quiet_listings others
  obtain ⟨later, below, count, near, runs⟩ := whole [] 0 0 [] quiet_nil
  simp only [List.append_nil, List.nil_append] at runs
  have short : count ≤ ((field :: fields).flatMap fun field => listing field.1 field.2).length := by
    simpa [inBlock] using near
  obtain ⟨spare, budget⟩ : ∃ spare,
      ((field :: fields).flatMap fun field => listing field.1 field.2).length + 2 =
        count + (spare + 1) :=
    ⟨((field :: fields).flatMap fun field => listing field.1 field.2).length + 1 - count, by omega⟩
  rw [tokens?, budget]
  exact (runs (spare + 1)).trans (run_end spare _ _ _)

end Lexer

end DependencyAudit.Yaml
