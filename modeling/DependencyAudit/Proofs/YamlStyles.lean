/-
# DependencyAudit.Proofs.YamlStyles -- texts without line breaks as scalars

A text without line breaks (`OneLine`) is written plain, in single quotes or in double quotes,
and whichever it is, it stands on a line as a reader expects it (`onLine_scalar`): a plain text
neither looks like anything else nor ends early, and what has no place in a text is escaped.
-/
import DependencyAudit.Proofs.YamlScalars
import DependencyAudit.Yaml.Token

namespace DependencyAudit.Yaml

set_option autoImplicit false

open Printer

/-- A text without line breaks. -/
def OneLine (text : String) : Prop :=
  ∀ c ∈ text.toList, isBreak c = false

/-! ## Spellings -/

/-- What a character is written as between single quotes. -/
def singleChar (c : Char) : List Char :=
  if c = '\x27' then ['\x27', '\x27'] else [c]

theorem singleBody_eq_flatMap {cs : List Char} (inline : ∀ c ∈ cs, isBreak c = false) :
    singleBody false cs = cs.flatMap singleChar := by
  induction cs with
  | nil => rfl
  | cons c rest body =>
      obtain ⟨own, others⟩ := List.forall_mem_cons.mp inline
      rw [singleBody, if_neg (by simp [own]), if_neg (by simp), List.nil_append, body others,
        List.flatMap_cons, singleChar]

theorem not_tab_of_isPrintable {c : Char} (printable : isPrintable c = true) : c ≠ '\t' := by
  rintro rfl
  exact absurd printable (by decide)

theorem spelled_singleChar {c : Char} (inline : isBreak c = false)
    (printable : isPrintable c = true) (solid : c ≠ ' ') : Spelled false (singleChar c) c := by
  unfold singleChar
  split
  · rename_i quote
    subst quote
    exact spelled_quote
  · rename_i other
    exact spelled_self (isSpaceOrTab_eq_false solid (not_tab_of_isPrintable printable)) inline
      (fun _ => other) (by simp) (by simp)

theorem spelled_doubleChar {c : Char} (solid : c ≠ ' ') : Spelled true (doubleChar c) c := by
  unfold doubleChar
  split
  · exact spelled_escape c
  · rename_i plain
    simp only [Bool.or_eq_true, Bool.not_eq_true', not_or, Bool.not_eq_false,
      decide_eq_true_eq, Bool.not_eq_true] at plain
    obtain ⟨⟨⟨printable, inline⟩, noQuote⟩, noEscape⟩ := plain
    exact spelled_self (isSpaceOrTab_eq_false solid (not_tab_of_isPrintable printable)) inline
      (by simp) (fun _ => noQuote) (fun _ => noEscape)

/-! ## Characters that a text may hold -/

theorem isAllowed_of_isPrintable {c : Char} (printable : isPrintable c = true) :
    isAllowed c = true := by
  simp only [isPrintable, isAllowed, Bool.or_eq_true, Bool.and_eq_true, decide_eq_true_eq] at *
  omega

theorem isAllowed_escape (c : Char) : ∀ d ∈ escape c, isAllowed d = true := by
  have digit : ∀ n, n < 16 → isAllowed (Json.hexDigit n).toUpper = true := by decide
  have digits : ∀ count n, ∀ d ∈ hexDigits count n, isAllowed d = true := by
    intro count n d member
    obtain ⟨place, _, rfl⟩ := List.mem_map.mp member
    exact digit _ (Nat.mod_lt _ (by decide))
  have letters : ∀ entry ∈ escapeLetters, isAllowed entry.2 = true := by decide
  have backslash : isAllowed '\\' = true := by decide
  simp only [escape]
  split
  · rename_i letter found
    obtain ⟨before, after, shape, _⟩ := List.lookup_eq_some_iff.mp found
    have known := letters (c.toNat, letter) (by simp [shape])
    simp [backslash, known]
  · have marks : isAllowed 'x' = true ∧ isAllowed 'u' = true ∧ isAllowed 'U' = true := by decide
    split
    · simpa [backslash, marks] using digits 2 c.toNat
    · split
      · simpa [backslash, marks] using digits 4 c.toNat
      · simpa [backslash, marks] using digits 8 c.toNat

theorem isAllowed_quoted {spell : Char → List Char} {cs : List Char} (double : Bool)
    (inside : ∀ c ∈ cs, ∀ d ∈ spell c, isAllowed d = true) :
    ∀ d ∈ quoteMark double :: cs.flatMap spell ++ [quoteMark double], isAllowed d = true := by
  have quote : isAllowed (quoteMark double) = true := by cases double <;> decide
  intro d member
  simp only [List.cons_append, List.mem_cons, List.mem_append, List.not_mem_nil, or_false] at member
  rcases member with rfl | member | rfl
  · exact quote
  · obtain ⟨c, among, part⟩ := List.mem_flatMap.mp member
    exact inside c among d part
  · exact quote

theorem isAllowed_singleChar {c : Char} (printable : isPrintable c = true) :
    ∀ d ∈ singleChar c, isAllowed d = true := by
  unfold singleChar
  split
  · exact List.all_eq_true.mp (by decide)
  · intro d member
    rw [List.mem_singleton.mp member]
    exact isAllowed_of_isPrintable printable

theorem isAllowed_doubleChar (c : Char) : ∀ d ∈ doubleChar c, isAllowed d = true := by
  unfold doubleChar
  split
  · exact isAllowed_escape c
  · rename_i plain
    simp only [Bool.or_eq_true, Bool.not_eq_true', not_or, Bool.not_eq_false] at plain
    intro d member
    rw [List.mem_singleton.mp member]
    exact isAllowed_of_isPrintable plain.1.1.1

/-! ## Styles -/

/-- The style that a reader takes a scalar for. -/
def Printer.Style.read : Style → ScalarStyle
  | .plain => .plain
  | .single => .singleQuoted
  | .double => .doubleQuoted
  | .literal => .literal

/-- What a text without line breaks is written as, and the style that a reader takes it for. -/
inductive OnLine (cs : List Char) : List Char → ScalarStyle → Prop where
  | plain (nonempty : cs ≠ []) (solid : Solid cs) (free : startsIndicator cs = false)
      (unended : Unended cs) : OnLine cs cs .plain
  | quoted (double : Bool) (spell : Char → List Char) (space : spell ' ' = [' '])
      (each : ∀ c ∈ cs, c ≠ ' ' → Spelled double (spell c) c) :
      OnLine cs (quoteMark double :: cs.flatMap spell ++ [quoteMark double])
        (if double then .doubleQuoted else .singleQuoted)

section Scalars

variable {text : String}

/-- Without line breaks, the traits of a text decide between plain and quoted. -/
theorem style_of_inline (inline : OneLine text) :
    style text =
      if PlainText.isAmbiguous text || (traits text.toList).hasOuterGap ||
          (traits text.toList).hasBreakSpace || (traits text.toList).hasSpaceBreak ||
          (traits text.toList).hasSpecial || (traits text.toList).hasBreak ||
          (traits text.toList).hasIndicator then
        quotedStyle (traits text.toList)
      else .plain := by
  have noLine : '\n' ∉ text.toList := fun member => absurd (inline _ member) (by decide)
  simp only [style, if_neg noLine]

theorem quotedStyle_ne_plain (traits : Traits) : quotedStyle traits ≠ .plain := by
  unfold quotedStyle
  split <;> simp

/-- What a plain text looks like. -/
theorem of_style_plain (inline : OneLine text) (plain : style text = .plain) :
    OnLine text.toList text.toList .plain ∧ ∀ c ∈ text.toList, isPrintable c = true := by
  rw [style_of_inline inline] at plain
  split at plain
  · exact absurd plain (quotedStyle_ne_plain _)
  · rename_i free
    simp only [Bool.or_eq_true, not_or, Bool.not_eq_true] at free
    obtain ⟨⟨⟨⟨⟨⟨clear, outer⟩, _⟩, _⟩, special⟩, _⟩, indicator⟩ := free
    simp only [traits, Bool.or_eq_false_iff, hasInnerIndicator, decide_eq_false_iff_not]
      at indicator
    obtain ⟨⟨_, free⟩, ⟨noValue, noColon⟩, noComment⟩ := indicator
    have printable : ∀ c ∈ text.toList, isPrintable c = true := by
      simpa [traits] using special
    have nonempty : text.toList ≠ [] := by
      intro empty
      have nothing : text = "" := String.toList_eq_nil_iff.mp empty
      subst nothing
      simp [PlainText.isAmbiguous] at clear
    have noTab : ∀ c ∈ text.toList, c ≠ '\t' := fun c member =>
      not_tab_of_isPrintable (printable c member)
    have solid : Solid text.toList := by
      intro c first
      have noSpace : c ≠ ' ' := by
        rintro rfl
        simp [traits, first, isSpace] at outer
      have member := List.mem_of_mem_head? first
      exact ⟨isSpaceOrTab_eq_false noSpace (noTab c member), inline c member⟩
    have noSpace : text.toList.getLast? ≠ some ' ' := by
      intro last
      simp [traits, last, isSpace] at outer
    have unended : Unended text.toList :=
      ⟨fun c member => ⟨inline c member, noTab c member⟩, noValue, noComment, noColon, noSpace⟩
    exact ⟨.plain nonempty solid free unended, printable⟩

theorem isPrintable_of_style_single (inline : OneLine text) (single : style text = .single) :
    ∀ c ∈ text.toList, isPrintable c = true := by
  rw [style_of_inline inline] at single
  split at single
  · unfold quotedStyle at single
    split at single
    · cases single
    · rename_i free
      simp only [Bool.or_eq_true, not_or, Bool.not_eq_true] at free
      simpa [traits] using free.2
  · cases single

theorem style_ne_literal (inline : OneLine text) : style text ≠ .literal := by
  rw [style_of_inline inline]
  split
  · unfold quotedStyle
    split <;> simp
  · simp

/-! ## Scalars -/

theorem scalar_of_single (inline : OneLine text) (single : style text = .single) :
    scalar text = quoteMark false :: text.toList.flatMap singleChar ++ [quoteMark false] := by
  simp only [scalar, single, singleBody_eq_flatMap inline]
  rfl

theorem scalar_of_double (double : style text = .double) :
    scalar text = quoteMark true :: text.toList.flatMap doubleChar ++ [quoteMark true] := by
  simp only [scalar, double]
  rfl

/-- **A text without line breaks is written on a line**, in the style that it is read in. -/
theorem onLine_scalar (inline : OneLine text) :
    OnLine text.toList (scalar text) (style text).read := by
  cases chosen : style text with
  | plain =>
      have written : scalar text = text.toList := by simp only [scalar, chosen]
      rw [written]
      exact (of_style_plain inline chosen).1
  | single =>
      have printable := isPrintable_of_style_single inline chosen
      rw [scalar_of_single inline chosen]
      exact .quoted false singleChar rfl fun c member =>
        spelled_singleChar (inline c member) (printable c member)
  | double =>
      rw [scalar_of_double chosen]
      exact .quoted true doubleChar rfl fun c _ => spelled_doubleChar
  | literal => exact absurd chosen (style_ne_literal inline)

example : scalar "a.B" = "a.B".toList ∧ scalar "true" = "'true'".toList ∧
    scalar "\uFEFF" = "\"\\uFEFF\"".toList := by
  decide +kernel

theorem isAllowed_scalar (inline : OneLine text) : ∀ c ∈ scalar text, isAllowed c = true := by
  cases chosen : style text with
  | plain =>
      have written : scalar text = text.toList := by simp only [scalar, chosen]
      have printable := (of_style_plain inline chosen).2
      rw [written]
      exact fun c member => isAllowed_of_isPrintable (printable c member)
  | single =>
      have printable := isPrintable_of_style_single inline chosen
      rw [scalar_of_single inline chosen]
      exact isAllowed_quoted false fun c member => isAllowed_singleChar (printable c member)
  | double =>
      rw [scalar_of_double chosen]
      exact isAllowed_quoted true fun c _ => isAllowed_doubleChar c
  | literal => exact absurd chosen (style_ne_literal inline)

theorem item_eq_line (inline : OneLine text) :
    item text = '-' :: ' ' :: scalar text ++ ['\n'] := by
  simp [item, style_ne_literal inline]

end Scalars

end DependencyAudit.Yaml
