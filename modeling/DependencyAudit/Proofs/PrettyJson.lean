/-
# DependencyAudit.Proofs.PrettyJson -- JSON with an item to a line read back

Blanks between tokens come to nothing (`scansTo_blanks`), so a value that is written with an
item to a line comes to the tokens that it comes to without blanks.  A line break may stand in
front of each item as well as behind each comma; so lists are taken as items between commas
again, each with the blanks in front of it (`parseChars_pretty`).
-/
import DependencyAudit.Proofs.JsonText

namespace DependencyAudit.Json

set_option autoImplicit false

open Token

/-! ## Blanks -/

/-- Line breaks and spaces come to nothing. -/
theorem scansTo_blanks {blanks : List Char} (every : ∀ c ∈ blanks, c = ' ' ∨ c = '\n') :
    ScansTo blanks [] := by
  induction blanks with
  | nil => exact fun reversed rest => rfl
  | cons c blanks more =>
      obtain ⟨own, others⟩ := List.forall_mem_cons.mp every
      have first : ScansTo [c] [] := by
        intro reversed rest
        rcases own with rfl | rfl <;> rfl
      exact first.append (more others)

/-- A line break ends what stands in front of it. -/
theorem scansTo_line {cs : List Char} {tokens : List Token} (scans : Scans cs tokens) :
    ScansTo (cs ++ ['\n']) tokens := by
  intro reversed rest
  have ends : Ends (some '\n' :: rest) := by
    rintro unit ⟨⟩
    exact ⟨'\n', rfl, by decide⟩
  have first := scans reversed (some '\n' :: rest) ends
  rw [List.map_append, List.append_assoc]
  exact first

theorem blank_of_mem_indent {depth : Nat} : ∀ c ∈ (indent depth).toList, c = ' ' ∨ c = '\n' := by
  intro c member
  rw [indent, String.toList_ofList] at member
  exact .inl (List.mem_replicate.mp member).2

/-- A bracket on a line of its own closes a list. -/
theorem closes_line {c : Char} {token : Token} (wordless : isWordChar c = false)
    (mark : fresh c = some (.between, [token])) (depth : Nat) :
    Closes (['\n'] ++ (indent depth).toList ++ [c]) token := by
  intro cs tokens scans
  have line := (scansTo_line scans).append (scansTo_blanks (@blank_of_mem_indent depth))
  have closed := closes_mark wordless mark _ _ line.scans
  simpa only [List.append_assoc, List.append_nil] using closed

/-! ## Lists -/

/-- Line breaks behind the commas are line breaks in front of the items. -/
theorem intercalate_lines {texts : List (List Char)} (nonempty : texts ≠ []) :
    '\n' :: [',', '\n'].intercalate texts = [','].intercalate (texts.map ('\n' :: ·)) := by
  induction texts with
  | nil => exact absurd rfl nonempty
  | cons text texts same =>
      cases texts with
      | nil => rfl
      | cons next texts =>
          have tail := same (by simp)
          rw [List.intercalate_cons_cons, List.map_cons, List.map_cons, List.intercalate_cons_cons,
            ← List.map_cons, ← tail]
          simp

theorem toList_bracketed {opening closing : String} (depth : Nat) {texts : List String}
    (nonempty : texts ≠ []) :
    (bracketed opening closing depth texts).toList =
      opening.toList ++ ([','].intercalate
        (texts.map fun text => '\n' :: (indent (depth + 1)).toList ++ text.toList) ++
          (['\n'] ++ (indent depth).toList ++ closing.toList)) := by
  have lines := intercalate_lines
    (by simpa using nonempty : (texts.map fun text => (indent (depth + 1) ++ text).toList) ≠ [])
  rw [List.map_map] at lines
  have items : (texts.map fun text => '\n' :: (indent (depth + 1)).toList ++ text.toList) =
      texts.map ((fun cs => '\n' :: cs) ∘ fun text => (indent (depth + 1) ++ text).toList) :=
    List.map_congr_left fun text _ => by simp
  have unfolded : bracketed opening closing depth texts = opening ++ "\n" ++
      ",\n".intercalate (texts.map fun item => indent (depth + 1) ++ item) ++
        "\n" ++ indent depth ++ closing := by
    unfold bracketed
    split
    · exact absurd rfl nonempty
    · rfl
  rw [items, ← lines, unfolded]
  simp [String.toList_intercalate, Function.comp_def]

/-! ## Values -/

/-- Some text comes to tokens, and these to a value. -/
def ComesTo (cs : List Char) (value : Json) : Prop :=
  ∃ tokens, Scans cs tokens ∧ Parses tokens value

/-- The parts of a list with a line to each come to tokens that stand between commas. -/
theorem exists_tokens_of_lines {α : Type} {spell : α → String} {parses : List Token → α → Prop}
    {opening closing : Char} {first last : Token} (opens : fresh opening = some (.between, [first]))
    (wordless : isWordChar closing = false) (closes : fresh closing = some (.between, [last]))
    (depth : Nat) {parts : List α}
    (each : ∀ part ∈ parts, ∃ tokens, Scans (spell part).toList tokens ∧ parses tokens part) :
    ∃ tokens, List.Forall₂ parses tokens parts ∧
      Scans (bracketed (String.singleton opening) (String.singleton closing) depth
        (parts.map spell)).toList ([first] ++ ([.comma].intercalate tokens ++ [last])) := by
  obtain ⟨tokens, known⟩ := Outcome.exists_forall₂ each
  have parsed : List.Forall₂ parses tokens parts :=
    List.Forall₂.flip (known.imp fun part own both => both.2)
  refine ⟨tokens, parsed, ?_⟩
  cases known with
  | nil =>
      have brackets : bracketed (String.singleton opening) (String.singleton closing) depth [] =
          String.singleton opening ++ String.singleton closing := rfl
      rw [List.map_nil, brackets, String.toList_append, String.toList_singleton,
        String.toList_singleton]
      exact ((scansTo_mark opens).append (scansTo_mark closes)).scans
  | @cons part own parts tokens head others =>
      rw [toList_bracketed depth (by simp), String.toList_singleton, String.toList_singleton]
      have scanned : List.Forall₂ Scans
          (((part :: parts).map spell).map fun text =>
            '\n' :: (indent (depth + 1)).toList ++ text.toList) (own :: tokens) := by
        rw [List.map_map]
        refine List.forall₂_map_left_iff.mpr (List.Forall₂.imp ?_ (.cons head others))
        intro part own both
        have blanks : ScansTo ('\n' :: (indent (depth + 1)).toList) [] :=
          scansTo_blanks (List.forall_mem_cons.mpr ⟨.inr rfl, blank_of_mem_indent⟩)
        exact blanks.append_scans both.1
      exact ((scansTo_mark opens).append (scansTo_separated (closes_line wordless closes depth)
        scanned (by simp))).scans

theorem prettyFields_eq (depth : Nat) (fields : List (String × Json)) :
    prettyAt.prettyFields depth fields =
      fields.map fun field => quoted field.1 ++ ": " ++ field.2.prettyAt depth := by
  induction fields with
  | nil => rw [prettyAt.prettyFields, List.map_nil]
  | cons field fields rest => rw [prettyAt.prettyFields, rest, List.map_cons]

theorem comesTo_array {items : List Json} (depth : Nat)
    (each : ∀ item ∈ items, ∀ depth, ComesTo (item.prettyAt depth).toList item) :
    ComesTo ((array items).prettyAt depth).toList (.array items) := by
  obtain ⟨tokens, parsed, scanned⟩ := exists_tokens_of_lines
    (by decide : fresh '[' = some (.between, [.openBracket])) (by decide)
    (by decide : fresh ']' = some (.between, [.closeBracket])) depth
    fun item member => each item member (depth + 1)
  rw [prettyAt]
  exact ⟨_, scanned, parses_array parsed⟩

theorem comesTo_object {fields : List (String × Json)} (depth : Nat)
    (each : ∀ field ∈ fields, ∀ depth, ComesTo (field.2.prettyAt depth).toList field.2) :
    ComesTo ((object fields).prettyAt depth).toList (.object fields) := by
  have entries : ∀ field ∈ fields, ∃ tokens,
      Scans (quoted field.1 ++ ": " ++ field.2.prettyAt (depth + 1)).toList tokens ∧
        ParsesField tokens field := by
    intro field member
    obtain ⟨own, scans, parses⟩ := each field member (depth + 1)
    have colon : ScansTo ": ".toList [.colon] :=
      (scansTo_mark (by decide : fresh ':' = some (.between, [.colon]))).append
        (scansTo_blanks (by simp : ∀ c ∈ [' '], c = ' ' ∨ c = '\n'))
    refine ⟨_, ?_, own, rfl, parses⟩
    rw [String.toList_append, String.toList_append, List.append_assoc]
    exact (scansTo_quoted field.1).append_scans (colon.append_scans scans)
  obtain ⟨tokens, parsed, scanned⟩ := exists_tokens_of_lines
    (by decide : fresh '{' = some (.between, [.openBrace])) (by decide)
    (by decide : fresh '}' = some (.between, [.closeBrace])) depth entries
  rw [prettyAt, prettyFields_eq]
  exact ⟨_, scanned, parses_object parsed⟩

/-- A written value comes back at every depth. -/
theorem comesTo_of_written {value : Json} (written : Written value) :
    ∀ depth, ComesTo (value.prettyAt depth).toList value := by
  -- a value without parts is written alike with and without blanks
  have single : ∀ {value : Json} {depth}, Written value → value.prettyAt depth = value.compact →
      ComesTo (value.prettyAt depth).toList value := by
    intro value depth written same
    rw [same]
    exact readBack_of_written written
  induction written with
  | null => exact fun depth => single .null (by rw [prettyAt, compact])
  | bool value => exact fun depth => single (.bool value) (by rw [prettyAt, compact])
  | natural n => exact fun depth => single (.natural n) (by rw [ofNat, prettyAt, compact])
  | text text => exact fun depth => single (.text text) (by rw [prettyAt, compact])
  | array items _ each => exact fun depth => comesTo_array depth each
  | object fields _ each => exact fun depth => comesTo_object depth each

/-- **A value that is written with an item to a line is read as the value**, on lines of its
own. -/
theorem parseChars_pretty {value : Json} (written : Written value) :
    parseChars (value.pretty.toList ++ ['\n']) = some value := by
  obtain ⟨tokens, scans, parses⟩ := comesTo_of_written written 0
  have scanned : scan ((value.pretty.toList ++ ['\n']).map some) = some tokens := by
    have whole := scansTo_line scans [] []
    rw [List.append_nil, List.append_nil] at whole
    rw [scan, pretty, whole]
    simp [scanFrom, finish]
  have parsed := parses (2 * tokens.length + 1) [] (by omega)
  rw [List.append_nil] at parsed
  rw [parseChars, parseUnits, scanned]
  simp [parsed]

end DependencyAudit.Json
