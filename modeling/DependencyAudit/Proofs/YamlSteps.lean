/-
# DependencyAudit.Proofs.YamlSteps -- YAML token by token

The lexer goes from token to token, and from one lexer to another in no more steps than there are
characters between them (`Leads`); gaps between tokens take none.  In a block its state is told by
what is left, what was read, and where a key may have begun (`inBlock`).  A scalar that stands on a
line is one step, after which the next line begins (`leads_scalar`).
-/
import DependencyAudit.Proofs.YamlStyles
import DependencyAudit.Yaml.Lexer

namespace DependencyAudit.Yaml

set_option autoImplicit false

open Printer

namespace Lexer

/-! ## Runs -/

/-- A lexer comes to another one, and reads a token for each character at most. -/
def Leads (lexer later : Lexer) : Prop :=
  ∃ count, count + later.cursor.rest.length ≤ lexer.cursor.rest.length ∧
    ∀ budget, run (count + budget) lexer = run budget later

theorem Leads.refl (lexer : Lexer) : Leads lexer lexer :=
  ⟨0, by omega, fun budget => by rw [Nat.zero_add]⟩

theorem Leads.trans {lexer between later : Lexer} (first : Leads lexer between)
    (second : Leads between later) : Leads lexer later := by
  obtain ⟨count, near, runs⟩ := first
  obtain ⟨more, far, follows⟩ := second
  exact ⟨count + more, by omega, fun budget => by rw [Nat.add_assoc, runs, follows]⟩

theorem leads_of_next {lexer later : Lexer} (step : lexer.next = some later)
    (less : later.cursor.rest.length < lexer.cursor.rest.length)
    (unended : later.tokens.getLast? ≠ some .streamEnd) : Leads lexer later := by
  refine ⟨1, by omega, fun budget => ?_⟩
  rw [Nat.add_comm, run, step]
  simp [unended]

/-- A lexer that goes on as another one. -/
theorem leads_of_same {lexer later : Lexer} (same : lexer.next = later.next)
    (less : later.cursor.rest.length ≤ lexer.cursor.rest.length) : Leads lexer later := by
  refine ⟨0, by omega, fun budget => ?_⟩
  rw [Nat.zero_add]
  cases budget with
  | zero => rfl
  | succ budget => rw [run, run, same]

/-! ## One step -/

/-- The state of the lexer in a block, outside of all brackets. -/
def inBlock (cursor : Cursor) (tokens : List Token) (opened allowed : Bool)
    (place : Option KeyPlace) : Lexer :=
  ⟨cursor, tokens, opened.toNat, if opened then [0] else [], allowed, place, []⟩

section Step

variable {rest : List Char} {index line column : Nat} {tokens : List Token}
  {opened allowed : Bool} {place : Option KeyPlace}

/-- There is no gap in front of what is left. -/
structure Settled (cursor : Cursor) : Prop where
  solid : Solid cursor.rest
  noComment : cursor.rest.head? ≠ some '#'
  noMark : cursor.column = 0 → ∀ c, cursor.rest.head? = some c → isByteOrderMark c = false

/-- A line that starts with neither a gap nor a mark for one. -/
structure Quiet (rest : List Char) : Prop where
  solid : Solid rest
  noComment : rest.head? ≠ some '#'
  noMark : ∀ c, rest.head? = some c → isByteOrderMark c = false

theorem quiet_nil : Quiet [] := by
  constructor <;> simp [Solid]

theorem Quiet.settled (quiet : Quiet rest) (index line column : Nat) :
    Settled ⟨rest, index, line, column⟩ :=
  ⟨quiet.solid, quiet.noComment, fun _ => quiet.noMark⟩

theorem skipGap_of_settled {lexer : Lexer} (settled : Settled lexer.cursor) (budget : Nat) :
    skipGap budget lexer = lexer := by
  cases budget with
  | zero => rfl
  | succ budget =>
      obtain ⟨solid, noComment, noMark⟩ := settled
      rw [skipGap]
      cases shape : lexer.cursor.rest with
      | nil => simp [Cursor.next, Cursor.has, Cursor.at?, shape]
      | cons c rest =>
          obtain ⟨noBlank, noBreak⟩ := solid c (by simp [shape])
          have noMark : (lexer.cursor.column = 0 && isByteOrderMark c) = false := by
            by_cases first : lexer.cursor.column = 0
            · simp [noMark first c (by simp [shape])]
            · simp [first]
          have noSign : c ≠ '#' := by simpa [shape] using noComment
          have noSpace : c ≠ ' ' ∧ c ≠ '\t' := by simpa [isSpaceOrTab] using noBlank
          simp only [Cursor.next, Cursor.has, Cursor.at?, shape, List.getElem?_cons_zero,
            Option.any_some, noMark]
          simp [noSpace, noSign, noBreak]

theorem unroll_of_shallow (cursor : Cursor) (floor : Nat) :
    (inBlock cursor tokens opened allowed place).unroll (floor + 1) =
      inBlock cursor tokens opened allowed place := by
  cases opened <;> simp [inBlock, unroll, inFlow, endBlocks]

theorem forgetStale_inBlock {cursor : Cursor} {kept : Option KeyPlace}
    (refreshed : refresh cursor place = some kept) :
    (inBlock cursor tokens opened allowed place).forgetStale =
      some (inBlock cursor tokens opened allowed kept) := by
  simp [forgetStale, inBlock, refreshed]

/-- The next token is read from the next character. -/
theorem next_of_char {c : Char} {kept : Option KeyPlace}
    (settled : Settled ⟨c :: rest, index, line, column⟩)
    (refreshed : refresh ⟨c :: rest, index, line, column⟩ place = some kept) :
    (inBlock ⟨c :: rest, index, line, column⟩ tokens opened allowed place).next =
      (inBlock ⟨c :: rest, index, line, column⟩ tokens opened allowed kept).readFrom c := by
  rw [next, skipGap_of_settled settled, forgetStale_inBlock refreshed, Option.bind_eq_bind,
    Option.bind_some]
  have here : (inBlock ⟨c :: rest, index, line, column⟩ tokens opened allowed kept).cursor.column =
      column := rfl
  rw [here, unroll_of_shallow]
  rfl

/-- The place of a key that cannot begin there any more is forgotten. -/
theorem leads_of_stale {key : KeyPlace} (settled : Settled ⟨rest, index, line, column⟩)
    (free : key.required = false) (passed : key.line < line) :
    Leads (inBlock ⟨rest, index, line, column⟩ tokens opened allowed (some key))
      (inBlock ⟨rest, index, line, column⟩ tokens opened allowed none) := by
  refine leads_of_same ?_ (Nat.le_refl _)
  have stale : refresh ⟨rest, index, line, column⟩ (some key) = some none := by
    simp [refresh, isStale, passed, free]
  rw [next, next, skipGap_of_settled settled, skipGap_of_settled settled,
    forgetStale_inBlock stale, forgetStale_inBlock rfl]

/-- A line break between tokens is passed over. -/
theorem leads_line :
    Leads (inBlock ⟨'\n' :: rest, index, line, column⟩ tokens opened allowed place)
      (inBlock ⟨rest, index + '\n'.utf8Size, line + 1, 0⟩ tokens opened true place) := by
  refine leads_of_same ?_ (Nat.le_succ _)
  have skipped : skipGap (rest.length + 2)
      (inBlock ⟨'\n' :: rest, index, line, column⟩ tokens opened allowed place) =
      skipGap (rest.length + 1)
        (inBlock ⟨rest, index + '\n'.utf8Size, line + 1, 0⟩ tokens opened true place) := by
    have noMark : isByteOrderMark '\n' = false := by decide
    have lineBreak : isBreak '\n' = true := by decide
    rw [skipGap]
    simp [inBlock, Cursor.next, Cursor.has, Cursor.at?, noMark, lineBreak, Cursor.stepBreak, inFlow]
  rw [next, next]
  exact congrArg (fun lexer : Lexer => lexer.forgetStale.bind _) skipped

/-- A space between tokens is passed over. -/
theorem leads_space :
    Leads (inBlock ⟨' ' :: rest, index, line, column⟩ tokens opened allowed place)
      (inBlock ⟨rest, index + ' '.utf8Size, line, column + 1⟩ tokens opened allowed place) := by
  refine leads_of_same ?_ (Nat.le_succ _)
  have skipped : skipGap (rest.length + 2)
      (inBlock ⟨' ' :: rest, index, line, column⟩ tokens opened allowed place) =
      skipGap (rest.length + 1)
        (inBlock ⟨rest, index + ' '.utf8Size, line, column + 1⟩ tokens opened allowed place) := by
    have noMark : isByteOrderMark ' ' = false := by decide
    rw [skipGap]
    simp [inBlock, Cursor.next, Cursor.at?, noMark, Cursor.step]
  rw [next, next]
  exact congrArg (fun lexer : Lexer => lexer.forgetStale.bind _) skipped

/-! ### Scalars -/

/-- No marker of a document starts here. -/
theorem isMarker_eq_false {cursor : Cursor} {mark : Char}
    (inside : cursor.column ≠ 0 ∨ cursor.rest.head? ≠ some mark) :
    cursor.isMarker mark = false := by
  rcases inside with deep | other
  · simp [Cursor.isMarker, deep]
  · have first : cursor.has mark 0 = false := by
      rw [List.head?_eq_getElem?] at other
      exact decide_eq_false other
    simp [Cursor.isMarker, first]

theorem ne_of_not_isIndicator {c mark : Char} (free : Printer.isIndicator c = false)
    (indicator : Printer.isIndicator mark = true) : c ≠ mark := by
  rintro rfl
  rw [free] at indicator
  cases indicator

/-- What a printer lets a plain text start with starts a plain scalar. -/
theorem startsPlain_of_free {lexer : Lexer} {c : Char} (noFlow : lexer.inFlow = false)
    (free : Printer.isIndicator c = false)
    (gapless : isGapIndicator c = true → lexer.cursor.isGap 1 = false)
    (noBlank : isSpaceOrTab c = false) : lexer.startsPlain c = true := by
  by_cases special : isGapIndicator c = true
  · have goesOn := gapless special
    have noBlankNext : (lexer.cursor.at? 1).any isSpaceOrTab = false := by
      cases second : lexer.cursor.at? 1 with
      | none => rfl
      | some next =>
          simp only [Cursor.isGap, second, Option.all_some, Bool.or_eq_false_iff] at goesOn
          exact goesOn.1
    simp only [isGapIndicator, Bool.or_eq_true, decide_eq_true_eq] at special
    rcases special with (rfl | rfl) | rfl <;> simp [startsPlain, noFlow, goesOn, noBlankNext]
  · have solid : ∀ mark, isGapIndicator mark = true → c ≠ mark := by
      rintro mark indicator rfl
      exact special indicator
    have other : ∀ mark, Printer.isIndicator mark = true → c ≠ mark :=
      fun mark => ne_of_not_isIndicator free
    have noIndicator : isIndicator c = false := by
      simp [isIndicator, solid '-' (by decide), solid '?' (by decide), solid ':' (by decide),
        other ',' (by decide), other '[' (by decide), other ']' (by decide),
        other '{' (by decide), other '}' (by decide), other '#' (by decide),
        other '&' (by decide), other '*' (by decide), other '!' (by decide),
        other '|' (by decide), other '>' (by decide), other '\x27' (by decide),
        other '"' (by decide), other '%' (by decide), other '@' (by decide),
        other '`' (by decide)]
    simp [startsPlain, noIndicator, noBlank]

/-- What starts a plain scalar is read as one, unless it marks a document. -/
theorem readFrom_plain {lexer : Lexer} {c : Char} (shape : lexer.cursor.rest = c :: rest)
    (noFlow : lexer.inFlow = false) (free : Printer.isIndicator c = false)
    (gapless : isGapIndicator c = true → lexer.cursor.isGap 1 = false)
    (noBlank : isSpaceOrTab c = false)
    (inside : lexer.cursor.column ≠ 0 ∨ c ≠ '-' ∧ c ≠ '.') :
    lexer.readFrom c = lexer.readPlain := by
  have other : ∀ mark, Printer.isIndicator mark = true → c ≠ mark :=
    fun mark => ne_of_not_isIndicator free
  have noMarker : lexer.cursor.isMarker '-' = false ∧ lexer.cursor.isMarker '.' = false := by
    constructor
    · exact isMarker_eq_false (inside.imp id fun other => by simpa [shape] using other.1)
    · exact isMarker_eq_false (inside.imp id fun other => by simpa [shape] using other.2)
  have inner : ∀ mark, isGapIndicator mark = true →
      (c = mark && lexer.cursor.isGap 1) = false := by
    rintro mark indicator
    by_cases same : c = mark
    · subst same
      rw [gapless indicator, Bool.and_false]
    · simp [same]
  have starts := startsPlain_of_free noFlow free gapless noBlank
  simp [readFrom, noMarker, noFlow, inner '-' (by decide), inner '?' (by decide),
    inner ':' (by decide), starts, other '%' (by decide), other '[' (by decide),
    other ']' (by decide), other '{' (by decide), other '}' (by decide), other ',' (by decide),
    other '*' (by decide), other '&' (by decide), other '!' (by decide), other '|' (by decide),
    other '>' (by decide), other '\x27' (by decide), other '"' (by decide)]

/-- The place of a key that begins here. -/
def keyPlaceAt (cursor : Cursor) (tokens : List Token) (opened : Bool) : KeyPlace :=
  ⟨opened.toNat = cursor.column + 1, tokens.length, cursor.index, cursor.line, cursor.column⟩

theorem saveKeyPlace_inBlock (cursor : Cursor) :
    (inBlock cursor tokens opened true none).saveKeyPlace =
      some (inBlock cursor tokens opened true (some (keyPlaceAt cursor tokens opened))) := rfl

theorem readPlain_inBlock {cursor : Cursor} {plain : Plain}
    (read : Yaml.readPlain false opened.toNat (cursor.rest.length + 1) [] .none cursor =
      some plain) :
    (inBlock cursor tokens opened true none).readPlain =
      some (inBlock plain.cursor (tokens ++ [Token.scalar plain.text .plain]) opened plain.broken
        (some (keyPlaceAt cursor tokens opened))) := by
  rw [readPlain, saveKeyPlace_inBlock, Option.bind_eq_bind, Option.bind_some]
  change (Yaml.readPlain false opened.toNat (cursor.rest.length + 1) [] .none cursor).bind _ = _
  rw [read]
  rfl

theorem readKeyLike_inBlock {cursor after : Cursor} {token : Token}
    {read : Cursor → Option (Token × Cursor)} (found : read cursor = some (token, after)) :
    (inBlock cursor tokens opened true none).readKeyLike read =
      some (inBlock after (tokens ++ [token]) opened false
        (some (keyPlaceAt cursor tokens opened))) := by
  rw [readKeyLike, saveKeyPlace_inBlock, Option.bind_eq_bind, Option.bind_some]
  change (read cursor).bind _ = _
  rw [found]
  rfl

/-- A quote inside of a line starts a quoted scalar. -/
theorem readFrom_quote {lexer : Lexer} (double : Bool) (inside : lexer.cursor.column ≠ 0)
    (noFlow : lexer.inFlow = false) :
    lexer.readFrom (quoteMark double) = lexer.readKeyLike (readQuoted double) := by
  have noMarker : ∀ mark, lexer.cursor.isMarker mark = false :=
    fun mark => isMarker_eq_false (.inl inside)
  cases double <;> simp [readFrom, noMarker, noFlow, quoteMark, inside]

theorem getLast?_scalar (cs : List Char) (style : ScalarStyle) :
    (tokens ++ [Token.scalar cs style]).getLast? ≠ some .streamEnd := by
  simp

/-- What a plain text starts with is read as a plain scalar. -/
theorem next_of_plain {c : Char} {more tail : List Char} (solid : Solid (c :: more))
    (free : startsIndicator (c :: more) = false)
    (inside : column ≠ 0 ∨ c ≠ '-' ∧ c ≠ '.' ∧ isByteOrderMark c = false) :
    (inBlock ⟨c :: (more ++ tail), index, line, column⟩ tokens opened allowed none).next =
      (inBlock ⟨c :: (more ++ tail), index, line, column⟩
        tokens opened allowed none).readPlain := by
  obtain ⟨noBlank, noBreak⟩ := solid c rfl
  simp only [startsIndicator, Bool.or_eq_false_iff] at free
  obtain ⟨free, gapless⟩ := free
  have settled : Settled ⟨c :: (more ++ tail), index, line, column⟩ := by
    refine ⟨?_, ?_, ?_⟩
    · rintro _ ⟨⟩
      exact ⟨noBlank, noBreak⟩
    · rintro ⟨⟩
      exact absurd free (by decide)
    · rintro first _ ⟨⟩
      exact (inside.resolve_left (by simpa using first)).2.2
  rw [next_of_char settled rfl]
  refine readFrom_plain rfl rfl free (fun indicator => ?_) noBlank
    (inside.imp id fun other => ⟨other.1, other.2.1⟩)
  rw [indicator, Bool.true_and] at gapless
  cases more with
  | nil => cases gapless
  | cons d more =>
      simp only [List.head?_cons, Printer.isGap, Bool.or_eq_false_iff] at gapless
      simp [inBlock, Cursor.isGap, Cursor.at?, gapless]

/-- **A text on a line comes to the text**, and the lexer stands at the next line. -/
theorem leads_scalar {cs written : List Char} {style : ScalarStyle}
    (onLine : OnLine cs written style)
    (quiet : Quiet rest) :
    ∃ later, Leads
      (inBlock ⟨written ++ '\n' :: rest, index, line, column + 2⟩ tokens true true none)
      (inBlock ⟨rest, later, line + 1, 0⟩ (tokens ++ [Token.scalar cs style]) true true none) := by
  cases onLine with
  | plain nonempty solid free unended =>
      obtain ⟨later, read⟩ := readPlain_of_line unended quiet.solid index line (column + 2)
      have step : (inBlock _ tokens true true none).readPlain = _ := readPlain_inBlock read
      obtain ⟨c, more, rfl⟩ := List.exists_cons_of_ne_nil nonempty
      rw [List.cons_append, ← next_of_plain solid free (.inl (by omega))] at step
      have reads := leads_of_next step (by simp [inBlock]; omega) (getLast?_scalar _ _)
      refine ⟨later, reads.trans ?_⟩
      exact leads_of_stale (quiet.settled _ _ _) (by simp [keyPlaceAt]) (by simp [keyPlaceAt])
  | quoted double spell space each =>
      let body := cs.flatMap spell ++ quoteMark double :: '\n' :: rest
      let cursor : Cursor := ⟨quoteMark double :: body, index, line, column + 2⟩
      obtain ⟨later, after, text⟩ := readQuoted_of_line space each rest
        (by simp [cursor, body]; omega : (cs.flatMap spell).length < cursor.rest.length + 1)
        (index + (quoteMark double).utf8Size) line (column + 2)
      have found : readQuoted double cursor = some (.scalar cs _, _) :=
        congrArg (Option.map _) text
      have settled : Settled cursor := by
        refine ⟨solid_quoteMark double body, ?_, fun first => by cases first⟩
        cases double <;> simp [cursor, quoteMark]
      have step : (inBlock cursor tokens true true none).next = _ :=
        (next_of_char settled rfl).trans
          ((readFrom_quote double (Nat.succ_ne_zero _) rfl).trans (readKeyLike_inBlock found))
      have shape : quoteMark double :: cs.flatMap spell ++ [quoteMark double] ++ '\n' :: rest =
          quoteMark double :: body := by simp [body]
      rw [shape]
      have reads :=
        leads_of_next step (by simp [inBlock, cursor, body]; omega) (getLast?_scalar _ _)
      refine ⟨later + '\n'.utf8Size, reads.trans (leads_line.trans ?_)⟩
      exact leads_of_stale (quiet.settled _ _ _) (by simp [keyPlaceAt])
        (by simp [keyPlaceAt])

end Step

end Lexer

end DependencyAudit.Yaml
