/-
# DependencyAudit.Proofs.JsonText -- JSON texts read back

A value that can be written (`Written`: its numbers are naturals, and nothing in it is broken)
is read back from its text (`parseUnits_compact`).  The text is first cut into tokens and then
put together again, and so is the argument: some characters `Scan` to tokens, whatever stands
behind them, as long as that does not go on with a word; and some tokens `Parse` to a value,
whatever tokens stand behind them, as long as the budget covers their number twice.

Items and fields stand between commas, in the text as among the tokens, so both arguments have
one step for such a list (`scansTo_separated`, `readItems_separated`, `readFields_separated`).
-/
import DependencyAudit.Json.Parser
import DependencyAudit.Json.Printer
import DependencyAudit.Proofs.Outcome
import Mathlib.Data.List.TakeWhile

namespace DependencyAudit.Json

set_option autoImplicit false

/-- A value that can be written. -/
inductive Written : Json → Prop where
  | null : Written .null
  | bool (value : Bool) : Written (.bool value)
  | natural (n : Nat) : Written (.ofNat n)
  | text (text : String) : Written (.string text)
  | array (items : List Json) (each : ∀ item ∈ items, Written item) : Written (.array items)
  | object (fields : List (String × Json)) (each : ∀ field ∈ fields, Written field.2) :
      Written (.object fields)

theorem written_texts (texts : List String) : Written (.ofTexts texts) := by
  refine .array _ fun item member => ?_
  obtain ⟨text, _, rfl⟩ := List.mem_map.mp member
  exact .text text

/-! ## Characters to tokens -/

namespace Token

/-- What stands behind a word ends it. -/
def Ends (rest : List (Option Char)) : Prop :=
  ∀ unit, rest.head? = some unit → ∃ c, unit = some c ∧ isWordChar c = false

/-- Some characters come to some tokens, whatever stands behind them. -/
def ScansTo (cs : List Char) (tokens : List Token) : Prop :=
  ∀ reversed rest,
    scanFrom .between reversed (cs.map some ++ rest) =
      scanFrom .between (tokens.reverse ++ reversed) rest

/-- Some characters come to some tokens, if what stands behind them does not go on with a
word. -/
def Scans (cs : List Char) (tokens : List Token) : Prop :=
  ∀ reversed rest, Ends rest →
    scanFrom .between reversed (cs.map some ++ rest) =
      scanFrom .between (tokens.reverse ++ reversed) rest

theorem ScansTo.scans {cs : List Char} {tokens : List Token} (scans : ScansTo cs tokens) :
    Scans cs tokens :=
  fun reversed rest _ => scans reversed rest

theorem ScansTo.append_scans {cs more : List Char} {tokens others : List Token}
    (first : ScansTo cs tokens) (second : Scans more others) :
    Scans (cs ++ more) (tokens ++ others) := by
  intro reversed rest ends
  rw [List.map_append, List.append_assoc, first, second _ _ ends, List.reverse_append,
    List.append_assoc]

theorem ScansTo.append {cs more : List Char} {tokens others : List Token}
    (first : ScansTo cs tokens) (second : ScansTo more others) :
    ScansTo (cs ++ more) (tokens ++ others) := by
  intro reversed rest
  rw [List.map_append, List.append_assoc, first, second, List.reverse_append, List.append_assoc]

/-- A mark of punctuation ends what stands in front of it. -/
theorem Scans.append_mark {cs : List Char} {tokens : List Token} {c : Char} {token : Token}
    (scans : Scans cs tokens) (wordless : isWordChar c = false)
    (mark : fresh c = some (.between, [token])) : ScansTo (cs ++ [c]) (tokens ++ [token]) := by
  intro reversed rest
  have ends : Ends (some c :: rest) := by
    rintro unit ⟨⟩
    exact ⟨c, rfl, wordless⟩
  rw [List.map_append, List.append_assoc]
  have first := scans reversed (some c :: rest) ends
  simp only [List.map_cons, List.map_nil, List.cons_append, List.nil_append]
  rw [first, scanFrom, step, stepChar, mark]
  simp

theorem scansTo_mark {c : Char} {token : Token} (mark : fresh c = some (.between, [token])) :
    ScansTo [c] [token] := by
  intro reversed rest
  simp only [List.map_cons, List.map_nil, List.cons_append, List.nil_append]
  rw [scanFrom, step, stepChar, mark]

/-! ### Words -/

theorem fresh_of_isWordChar {c : Char} (inWord : isWordChar c = true) :
    fresh c = some (.word [c], []) := by
  have other : ∀ mark, isWordChar mark = false → c ≠ mark := by
    rintro mark wordless rfl
    rw [inWord] at wordless
    cases wordless
  have blank : (c = ' ' || c = '\n' || c = '\t' || c = '\r') = false := by
    simp [other ' ' (by decide), other '\n' (by decide), other '\t' (by decide),
      other '\r' (by decide)]
  simp [fresh, blank, other '[' (by decide), other ']' (by decide), other '{' (by decide),
    other '}' (by decide), other ',' (by decide), other ':' (by decide), other '"' (by decide),
    inWord]

/-- A word ends where something else begins. -/
theorem scanFrom_word {token : Token} {rest : List (Option Char)} (ends : Ends rest) :
    ∀ {cs : List Char} {collected : List Char} (reversed : List Token),
      (∀ c ∈ cs, isWordChar c = true) → ofWord? (collected.reverse ++ cs) = some token →
      scanFrom (.word collected) reversed (cs.map some ++ rest) =
        scanFrom .between (token :: reversed) rest
  | [], collected, reversed, _, word => by
      rw [List.append_nil] at word
      rw [List.map_nil, List.nil_append]
      cases rest with
      | nil => simp [scanFrom, finish, word]
      | cons unit more =>
          obtain ⟨c, rfl, wordless⟩ := ends unit rfl
          rw [scanFrom, scanFrom, step, step, stepChar, stepChar, wordless, word]
          cases fresh c with
          | none => rfl
          | some next => simp
  | c :: cs, collected, reversed, all, word => by
      have tail := @scanFrom_word token rest ends cs (c :: collected) reversed
        (fun other member => all other (List.mem_cons_of_mem c member)) (by simpa using word)
      rw [List.map_cons, List.cons_append, scanFrom, step, stepChar,
        if_pos (all c List.mem_cons_self)]
      exact tail

theorem scans_word {cs : List Char} {token : Token} (nonempty : cs ≠ [])
    (all : ∀ c ∈ cs, isWordChar c = true) (word : ofWord? cs = some token) :
    Scans cs [token] := by
  intro reversed rest ends
  obtain ⟨c, more, rfl⟩ := List.exists_cons_of_ne_nil nonempty
  rw [List.map_cons, List.cons_append, scanFrom, step, stepChar,
    fresh_of_isWordChar (all c List.mem_cons_self)]
  exact scanFrom_word ends reversed (fun other member => all other (List.mem_cons_of_mem c member))
    word

/-! ### Numbers -/

/-- The digits of a natural do not start with a zero that more digits follow. -/
theorem toDigits_zero_head {n : Nat} :
    ∀ rest, Nat.toDigits 10 n = '0' :: rest → rest = [] := by
  induction n using Nat.strongRecOn with
  | _ n smaller =>
      intro rest shape
      by_cases small : n < 10
      · rw [Nat.toDigits_of_lt_base small] at shape
        exact (List.cons.inj shape).2.symm
      · rw [Nat.toDigits_of_base_le (by decide) (by omega)] at shape
        obtain ⟨first, more, split⟩ := List.exists_cons_of_ne_nil
          (@Nat.toDigits_ne_nil (n / 10) 10)
        rw [split, List.cons_append] at shape
        obtain ⟨zero, _⟩ := List.cons.inj shape
        rw [zero] at split
        have alone := smaller (n / 10) (by omega) more split
        rw [alone] at split
        have value := @Nat.ofDigitChars_ten_toDigits (n / 10)
        rw [split] at value
        have nothing : Nat.ofDigitChars 10 ['0'] 0 = 0 := rfl
        omega

theorem isNumber_toDigits (n : Nat) : isNumber (Nat.toDigits 10 n) = true := by
  have digits : ∀ c ∈ Nat.toDigits 10 n, c.isDigit = true := fun c member =>
    Nat.isDigit_of_mem_toDigits (by decide) (by decide) member
  have head := @toDigits_zero_head n
  obtain ⟨first, rest, shape⟩ := List.exists_cons_of_ne_nil (@Nat.toDigits_ne_nil n 10)
  rw [shape, List.forall_mem_cons] at digits
  have unsigned : first ≠ '-' := by
    rintro rfl
    exact absurd digits.1 (by decide)
  have dropped : rest.dropWhile Char.isDigit = [] := List.dropWhile_eq_nil_iff.mpr digits.2
  have integer : dropInteger? (first :: rest) = some [] := by
    by_cases zero : first = '0'
    · subst zero
      rw [dropInteger?, head rest shape]
    · have other : dropInteger? (first :: rest) = dropDigits? (first :: rest) := by
        unfold dropInteger?
        split
        · rename_i same
          exact absurd (List.cons.inj same).1 zero
        · rfl
      rw [other, dropDigits?, if_pos digits.1, dropped]
  rw [shape, isNumber]
  · simp [integer, dropFraction?, dropExponent?]
  · intro digits same
    exact unsigned (List.cons.inj same).1

/-- A text of digits is no word of letters. -/
theorem ofWord?_toDigits (n : Nat) :
    ofWord? (Nat.toDigits 10 n) = some (.number (String.ofList (Nat.toDigits 10 n))) := by
  have digits : ∀ c ∈ Nat.toDigits 10 n, c.isDigit = true := fun c member =>
    Nat.isDigit_of_mem_toDigits (by decide) (by decide) member
  have other : ∀ word c, c ∈ word → c.isDigit = false → Nat.toDigits 10 n ≠ word := by
    rintro word c member letter rfl
    rw [digits c member] at letter
    cases letter
  rw [ofWord?, if_neg (other _ 'n' (by decide) (by decide)),
    if_neg (other _ 't' (by decide) (by decide)), if_neg (other _ 'f' (by decide) (by decide)),
    if_pos (isNumber_toDigits n)]

theorem scans_natural (n : Nat) :
    Scans (Nat.toDigits 10 n) [.number (String.ofList (Nat.toDigits 10 n))] := by
  refine scans_word Nat.toDigits_ne_nil (fun c member => ?_) (ofWord?_toDigits n)
  have digit := Nat.isDigit_of_mem_toDigits (by decide) (by decide) member
  simp [isWordChar, Char.isAlphanum, digit]

/-! ### Strings -/

theorem hexDigit?_hexDigit : ∀ n, n < 16 → hexDigit? (hexDigit n) = some n := by
  decide

/-- What a character is written as comes to the character. -/
theorem scanFrom_escapeChar (c : Char) (collected : List Nat) (reversed : List Token)
    (rest : List (Option Char)) :
    scanFrom (.text collected) reversed ((escapeChar c).map some ++ rest) =
      scanFrom (.text (c.toNat :: collected)) reversed rest := by
  have letter : ∀ (mark : Char) (unit : Nat), mark ≠ 'u' → escaped? mark = some unit →
      scanFrom (.text collected) reversed (['\\', mark].map some ++ rest) =
        scanFrom (.text (unit :: collected)) reversed rest := by
    intro mark unit other given
    simp [scanFrom, step, stepChar, other, given]
  unfold escapeChar
  split
  · rename_i quote
    subst quote
    exact letter '"' 34 (by decide) (by decide)
  split
  · rename_i backslash
    subst backslash
    exact letter '\\' 92 (by decide) (by decide)
  split
  · rename_i backspace
    rw [backspace]
    exact letter 'b' 8 (by decide) (by decide)
  split
  · rename_i page
    rw [page]
    exact letter 'f' 12 (by decide) (by decide)
  split
  · rename_i line
    subst line
    exact letter 'n' 10 (by decide) (by decide)
  split
  · rename_i carriage
    subst carriage
    exact letter 'r' 13 (by decide) (by decide)
  split
  · rename_i tab
    subst tab
    exact letter 't' 9 (by decide) (by decide)
  split
  · rename_i control
    have high := hexDigit?_hexDigit (c.toNat / 16) (by omega)
    have low := hexDigit?_hexDigit (c.toNat % 16) (by omega)
    have zero : hexDigit? '0' = some 0 := by decide
    have value : c.toNat / 16 * 16 + c.toNat % 16 = c.toNat := by omega
    simp [scanFrom, step, stepChar, zero, high, low, value]
  · rename_i quote backslash _ _ _ _ _ control
    simp [scanFrom, step, stepChar, quote, backslash, control]

/-- The characters of a text are collected up to the quote. -/
theorem scanFrom_text (reversed : List Token) (rest : List (Option Char)) :
    ∀ (cs : List Char) (collected : List Nat),
      scanFrom (.text collected) reversed ((cs.flatMap escapeChar).map some ++ some '"' :: rest) =
        scanFrom .between (ofUnits ((cs.map Char.toNat).reverse ++ collected) :: reversed) rest
  | [], collected => by simp [scanFrom, step, stepChar]
  | c :: cs, collected => by
      rw [List.flatMap_cons, List.map_append, List.append_assoc, scanFrom_escapeChar,
        scanFrom_text reversed rest cs]
      simp

theorem scansTo_quoted (text : String) : ScansTo (quoted text).toList [.string text] := by
  intro reversed rest
  have joined : ofUnits ((text.toList.map Char.toNat).reverse ++ []) = .string text := by
    rw [List.append_nil, ofUnits, List.reverse_reverse, joinUnits_of_chars]
    exact congrArg Token.string String.ofList_toList
  rw [quoted, String.toList_ofList]
  simp only [List.cons_append, List.map_cons, List.map_append, List.map_nil, List.append_assoc,
    List.nil_append]
  have quote : fresh '"' = some (.text [], []) := by decide
  rw [scanFrom, step, stepChar, quote]
  change scanFrom (.text []) reversed _ = _
  rw [scanFrom_text, joined]
  rfl

/-! ### Lists -/

/-- The end of a list comes to a token, and ends what stands in front of it. -/
def Closes (closing : List Char) (token : Token) : Prop :=
  ∀ cs tokens, Scans cs tokens → ScansTo (cs ++ closing) (tokens ++ [token])

theorem closes_mark {c : Char} {token : Token} (wordless : isWordChar c = false)
    (mark : fresh c = some (.between, [token])) : Closes [c] token :=
  fun _ _ scans => scans.append_mark wordless mark

/-- What stands between commas and before the end of a list comes to tokens that do. -/
theorem scansTo_separated {closing : List Char} {token : Token} (closes : Closes closing token)
    {texts : List (List Char)} {tokens : List (List Token)}
    (each : List.Forall₂ Scans texts tokens) (nonempty : texts ≠ []) :
    ScansTo ([','].intercalate texts ++ closing) ([.comma].intercalate tokens ++ [token]) := by
  induction each with
  | nil => exact absurd rfl nonempty
  | @cons text own texts tokens head each tail =>
      cases each with
      | nil =>
          rw [List.intercalate_singleton, List.intercalate_singleton]
          exact closes text own head
      | cons next others =>
          have first := head.append_mark (by decide : isWordChar ',' = false)
            (by decide : fresh ',' = some (.between, [.comma]))
          rw [List.intercalate_cons_cons, List.intercalate_cons_cons]
          have whole := first.append (tail (by simp))
          simpa only [List.append_assoc] using whole

/-- A list in brackets, empty or not. -/
theorem scansTo_bracketed {opening closing : Char} {first last : Token}
    (opens : fresh opening = some (.between, [first])) (wordless : isWordChar closing = false)
    (closes : fresh closing = some (.between, [last])) {texts : List (List Char)}
    {tokens : List (List Token)} (each : List.Forall₂ Scans texts tokens) :
    ScansTo ([opening] ++ ([','].intercalate texts ++ [closing]))
      ([first] ++ ([.comma].intercalate tokens ++ [last])) := by
  refine (scansTo_mark opens).append ?_
  cases each with
  | nil => exact scansTo_mark closes
  | cons head others =>
      exact scansTo_separated (closes_mark wordless closes) (.cons head others) (by simp)

end Token

/-! ## Tokens to values -/

/-- Some tokens come to a value, whatever tokens stand behind them. -/
def Parses (tokens : List Token) (value : Json) : Prop :=
  ∀ budget rest, 2 * tokens.length ≤ budget →
    readValue budget (tokens ++ rest) = some (value, rest)

theorem parses_single {token : Token} {value : Json}
    (read : ∀ budget rest, readValue (budget + 1) (token :: rest) = some (value, rest)) :
    Parses [token] value := by
  intro budget rest enough
  obtain ⟨left, rfl⟩ : ∃ left, budget = left + 1 := ⟨budget - 1, by simp at enough; omega⟩
  exact read left rest

/-- A value does not begin with the end of something else. -/
theorem Parses.exists_head {tokens : List Token} {value : Json} (parses : Parses tokens value) :
    ∃ first more, tokens = first :: more ∧ first ≠ .closeBracket := by
  cases tokens with
  | nil => cases parses 0 [] (Nat.le_refl _)
  | cons first more =>
      refine ⟨first, more, rfl, ?_⟩
      rintro rfl
      have read := parses (2 * more.length + 2) [] (Nat.le_refl _)
      rw [List.cons_append, readValue] at read
      · cases read
      all_goals simp

theorem readItems_separated {tokens : List (List Token)} {items : List Json}
    (each : List.Forall₂ Parses tokens items) (nonempty : items ≠ []) :
    ∀ budget rest, 2 * ([Token.comma].intercalate tokens).length + 1 ≤ budget →
      readItems budget ([Token.comma].intercalate tokens ++ .closeBracket :: rest) =
        some (items, rest) := by
  induction each with
  | nil => exact absurd rfl nonempty
  | @cons own item tokens items head each tail =>
      intro budget rest enough
      obtain ⟨left, rfl⟩ : ∃ left, budget = left + 1 := ⟨budget - 1, by omega⟩
      cases each with
      | nil =>
          rw [List.intercalate_singleton] at enough ⊢
          rw [readItems, head left _ (by omega)]
          rfl
      | @cons next other tokens items more others =>
          rw [List.intercalate_cons_cons] at enough ⊢
          simp only [List.length_append, List.length_singleton] at enough
          have first := head left (.comma :: ([Token.comma].intercalate (next :: tokens) ++
            .closeBracket :: rest)) (by omega)
          have others := tail (by simp) left rest (by omega)
          simp only [List.append_assoc, List.cons_append, List.nil_append]
          rw [readItems, first]
          simp only [bind, Option.bind, others]
          rfl

/-- The tokens of a key and its value. -/
def ParsesField (tokens : List Token) (field : String × Json) : Prop :=
  ∃ own, tokens = .string field.1 :: .colon :: own ∧ Parses own field.2

theorem readFields_separated {tokens : List (List Token)} {fields : List (String × Json)}
    (each : List.Forall₂ ParsesField tokens fields) (nonempty : fields ≠ []) :
    ∀ budget rest, 2 * ([Token.comma].intercalate tokens).length + 1 ≤ budget →
      readFields budget ([Token.comma].intercalate tokens ++ .closeBrace :: rest) =
        some (fields.map fun field => (some field.1, field.2), rest) := by
  induction each with
  | nil => exact absurd rfl nonempty
  | @cons own field tokens fields head each tail =>
      intro budget rest enough
      obtain ⟨left, rfl⟩ : ∃ left, budget = left + 1 := ⟨budget - 1, by omega⟩
      obtain ⟨held, rfl, parses⟩ := head
      cases each with
      | nil =>
          rw [List.intercalate_singleton] at enough ⊢
          simp only [List.length_cons] at enough
          simp only [List.cons_append]
          rw [readFields, parses left _ (by omega)]
          rfl
      | @cons next other tokens fields more others =>
          rw [List.intercalate_cons_cons] at enough ⊢
          simp only [List.length_append, List.length_cons] at enough
          have first := parses left (.comma :: ([Token.comma].intercalate (next :: tokens) ++
            .closeBrace :: rest)) (by omega)
          have others := tail (by simp) left rest (by omega)
          simp only [List.append_assoc, List.cons_append, List.nil_append]
          rw [readFields, first]
          simp only [bind, Option.bind, others]
          rfl

theorem ofFields_known (fields : List (String × Json)) :
    ofFields (fields.map fun field => (some field.1, field.2)) = .object fields := by
  have known : fields.mapM (fun field => some (field.1, field.2)) = some fields := by
    induction fields with
    | nil => rfl
    | cons field fields rest => simp [rest]
  simp only [ofFields, List.mapM_map, Function.comp_def, Option.map_some, known]

theorem parses_array {tokens : List (List Token)} {items : List Json}
    (each : List.Forall₂ Parses tokens items) :
    Parses (.openBracket :: ([Token.comma].intercalate tokens ++ [.closeBracket]))
      (.array items) := by
  intro budget rest enough
  simp only [List.length_cons, List.length_append, List.length_nil] at enough
  obtain ⟨left, rfl⟩ : ∃ left, budget = left + 1 := ⟨budget - 1, by omega⟩
  simp only [List.cons_append, List.append_assoc, List.nil_append]
  cases each with
  | nil => rw [List.intercalate_nil, List.nil_append, readValue]
  | @cons own item tokens items head others =>
      have read := readItems_separated (.cons head others) (by simp) left rest (by omega)
      obtain ⟨first, more, rfl, other⟩ := head.exists_head
      rw [List.intercalate_cons_cons_left, List.cons_append] at read ⊢
      rw [readValue, read]
      · rfl
      · rintro after ⟨rfl, _⟩
        exact other rfl

theorem parses_object {tokens : List (List Token)} {fields : List (String × Json)}
    (each : List.Forall₂ ParsesField tokens fields) :
    Parses (.openBrace :: ([Token.comma].intercalate tokens ++ [.closeBrace]))
      (.object fields) := by
  intro budget rest enough
  simp only [List.length_cons, List.length_append, List.length_nil] at enough
  obtain ⟨left, rfl⟩ : ∃ left, budget = left + 1 := ⟨budget - 1, by omega⟩
  simp only [List.cons_append, List.append_assoc, List.nil_append]
  cases each with
  | nil => rw [List.intercalate_nil, List.nil_append, readValue]
  | @cons own field tokens fields head others =>
      have read := readFields_separated (.cons head others) (by simp) left rest (by omega)
      obtain ⟨held, rfl, _⟩ := head
      rw [List.intercalate_cons_cons_left, List.cons_append] at read ⊢
      rw [readValue, read]
      · exact congrArg some (congrArg (·, rest) (ofFields_known _))
      · rintro after ⟨⟩

/-! ## The whole -/

open Token

theorem compactFields_eq (fields : List (String × Json)) :
    compact.compactFields fields =
      fields.map fun field => quoted field.1 ++ ":" ++ field.2.compact := by
  induction fields with
  | nil => rw [compact.compactFields, List.map_nil]
  | cons field fields rest => rw [compact.compactFields, rest, List.map_cons]

theorem isWordChar_of_mem_word :
    ∀ word ∈ [['n', 'u', 'l', 'l'], ['t', 'r', 'u', 'e'], ['f', 'a', 'l', 's', 'e']], ∀ c ∈ word,
      isWordChar c = true := by
  simp [isWordChar]

/-- The text of a value comes to some tokens, and these to the value. -/
def ReadBack (value : Json) : Prop :=
  ∃ tokens, Scans value.compact.toList tokens ∧ Parses tokens value

theorem readBack_word {word : List Char} {token : Token} {value : Json}
    (text : value.compact.toList = word)
    (listed : word ∈ [['n', 'u', 'l', 'l'], ['t', 'r', 'u', 'e'], ['f', 'a', 'l', 's', 'e']])
    (known : ofWord? word = some token)
    (read : ∀ budget rest, readValue (budget + 1) (token :: rest) = some (value, rest)) :
    ReadBack value := by
  refine ⟨[token], ?_, parses_single read⟩
  have nonempty : word ≠ [] := by
    rintro rfl
    cases known
  rw [text]
  exact scans_word nonempty (isWordChar_of_mem_word word listed) known

/-- The parts of a list come to tokens that stand between commas. -/
theorem exists_tokens_of_parts {α : Type} {spell : α → String} {parses : List Token → α → Prop}
    {opening closing : Char} {first last : Token} (opens : fresh opening = some (.between, [first]))
    (wordless : isWordChar closing = false) (closes : fresh closing = some (.between, [last]))
    {parts : List α}
    (each : ∀ part ∈ parts, ∃ tokens, Scans (spell part).toList tokens ∧ parses tokens part) :
    ∃ tokens, List.Forall₂ parses tokens parts ∧
      Scans ([opening] ++ ([','].intercalate (parts.map fun part => (spell part).toList) ++
        [closing])) ([first] ++ ([.comma].intercalate tokens ++ [last])) := by
  obtain ⟨tokens, known⟩ := Outcome.exists_forall₂ each
  have parsed : List.Forall₂ parses tokens parts :=
    List.Forall₂.flip (known.imp fun part own both => both.2)
  have scanned : List.Forall₂ Scans (parts.map fun part => (spell part).toList) tokens :=
    List.forall₂_map_left_iff.mpr (known.imp fun part own both => both.1)
  exact ⟨tokens, parsed, (scansTo_bracketed opens wordless closes scanned).scans⟩

theorem readBack_array {items : List Json} (each : ∀ item ∈ items, ReadBack item) :
    ReadBack (.array items) := by
  obtain ⟨tokens, parsed, scanned⟩ :=
    exists_tokens_of_parts (by decide : fresh '[' = some (.between, [.openBracket])) (by decide)
        (by decide : fresh ']' = some (.between, [.closeBracket])) each
  refine ⟨_, ?_, parses_array parsed⟩
  have text : (array items).compact.toList =
      ['['] ++ ([','].intercalate (items.map fun item => item.compact.toList) ++ [']']) := by
    rw [compact, String.toList_append, String.toList_append, String.toList_intercalate,
      List.map_map, List.append_assoc]
    rfl
  rw [text]
  exact scanned

theorem readBack_object {fields : List (String × Json)}
    (each : ∀ field ∈ fields, ReadBack field.2) : ReadBack (.object fields) := by
  have entries : ∀ field ∈ fields, ∃ tokens,
      Scans (quoted field.1 ++ ":" ++ field.2.compact).toList tokens ∧
        ParsesField tokens field := by
    intro field member
    obtain ⟨own, scans, parses⟩ := each field member
    refine ⟨_, ?_, own, rfl, parses⟩
    rw [String.toList_append, String.toList_append, List.append_assoc]
    exact (scansTo_quoted field.1).append_scans ((scansTo_mark (by decide)).append_scans scans)
  obtain ⟨tokens, parsed, scanned⟩ :=
    exists_tokens_of_parts (by decide : fresh '{' = some (.between, [.openBrace])) (by decide)
        (by decide : fresh '}' = some (.between, [.closeBrace])) entries
  refine ⟨_, ?_, parses_object parsed⟩
  have text : (object fields).compact.toList = ['{'] ++ ([','].intercalate
      (fields.map fun field => (quoted field.1 ++ ":" ++ field.2.compact).toList) ++
        ['}']) := by
    rw [compact, String.toList_append, String.toList_append, String.toList_intercalate,
      compactFields_eq, List.map_map, List.append_assoc]
    rfl
  rw [text]
  exact scanned

theorem readBack_of_written {value : Json} (written : Written value) : ReadBack value := by
  induction written with
  | null =>
      have text : null.compact.toList = ['n', 'u', 'l', 'l'] := by
        rw [compact]
        rfl
      have known : ofWord? ['n', 'u', 'l', 'l'] = some .null := by decide
      exact readBack_word text (.head _) known fun _ _ => by rw [readValue]
  | bool value =>
      have read : ∀ budget rest,
          readValue (budget + 1) (.bool value :: rest) = some (.bool value, rest) :=
        fun _ _ => by rw [readValue]
      cases value with
      | true =>
          have text : (bool true).compact.toList = ['t', 'r', 'u', 'e'] := by
            rw [compact]
            rfl
          exact readBack_word text (.tail _ (.head _)) (by decide) read
      | false =>
          have text : (bool false).compact.toList = ['f', 'a', 'l', 's', 'e'] := by
            rw [compact]
            rfl
          exact readBack_word text (.tail _ (.tail _ (.head _))) (by decide) read
  | natural n =>
      refine ⟨[.number (String.ofList (Nat.toDigits 10 n))], ?_, parses_single ?_⟩
      · rw [ofNat, compact, String.toList_ofList]
        exact scans_natural n
      · intro budget rest
        rw [readValue]
        rfl
  | text text =>
      refine ⟨[.string text], ?_, parses_single ?_⟩
      · rw [compact]
        exact (scansTo_quoted text).scans
      · intro budget rest
        rw [readValue]
  | array items _ each => exact readBack_array each
  | object fields _ each => exact readBack_object each

/-- **The text of a value that can be written is read as the value.** -/
theorem parseUnits_compact {value : Json} (written : Written value) :
    parseUnits (value.compact.toList.map some) = some value := by
  obtain ⟨tokens, scans, parses⟩ := readBack_of_written written
  have scanned : scan (value.compact.toList.map some) = some tokens := by
    have whole := scans [] [] (by simp [Ends])
    rw [List.append_nil, List.append_nil] at whole
    rw [scan, whole]
    simp [scanFrom, finish]
  have parsed := parses (2 * tokens.length + 1) [] (by omega)
  rw [List.append_nil] at parsed
  rw [parseUnits, scanned]
  simp [parsed]

end DependencyAudit.Json
