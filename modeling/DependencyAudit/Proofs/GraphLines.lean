/-
# DependencyAudit.Proofs.GraphLines -- lines of graph reports read back

A line of a report is written for an edge, or for none: it may be the header, the closing brace, or
a remark, which is a blank line, a comment or a setting (`ReportLine`).  There is much freedom in
it.  Blanks stand around everything, a target may say in parentheses where it comes from, and an
edge may carry a list of attributes.

Each side of an edge is trimmed several times over before its name is left, and the argument
follows the trimmings: outer blanks, marks at the end, attributes, parentheses, quotes.  None of
them takes anything from a name, because a name has no blank, quote, bracket or arrow in it
(`nodeName?_source`, `nodeName?_target`).  So each line is read as the edge that it was written
for, if any (`ofLine_line`).
-/
import Mathlib.Data.List.Infix
import DependencyAudit.ReferenceGraph

namespace DependencyAudit

open Text

set_option autoImplicit false

namespace ReferenceGraph

/-! ## Arrows -/

/-- There is no arrow in a text. -/
def Arrowless (cs : List Char) : Prop :=
  ¬ ['-', '>'] <:+: cs

theorem arrowless_cons {c : Char} {cs : List Char} :
    Arrowless (c :: cs) ↔ ¬ (c = '-' ∧ cs.head? = some '>') ∧ Arrowless cs := by
  have start : ['-', '>'] <+: c :: cs ↔ c = '-' ∧ cs.head? = some '>' := by
    cases cs with
    | nil => simp [List.cons_prefix_cons]
    | cons d rest => simp [List.cons_prefix_cons, eq_comm]
  rw [Arrowless, Arrowless, List.infix_cons_iff, start, not_or]

theorem arrowless_nil : Arrowless [] := by
  simp [Arrowless]

theorem arrowless_of_notMem {cs : List Char} (absent : '-' ∉ cs) : Arrowless cs :=
  fun arrow => absent (arrow.subset List.mem_cons_self)

/-- A character that is no part of an arrow keeps arrows apart. -/
theorem arrowless_append_cons {c : Char} (dash : c ≠ '-') (head : c ≠ '>') {ds : List Char} :
    ∀ {cs : List Char}, Arrowless (cs ++ c :: ds) ↔ Arrowless cs ∧ Arrowless ds
  | [] => by simp [arrowless_cons, dash, arrowless_nil]
  | d :: rest => by
      have front : (rest ++ c :: ds).head? = some '>' ↔ rest.head? = some '>' := by
        cases rest <;> simp [head]
      rw [List.cons_append, arrowless_cons, arrowless_append_cons dash head, front, arrowless_cons,
        and_assoc]

theorem after?_arrow {c : Char} {cs : List Char} (start : ¬ (c = '-' ∧ cs.head? = some '>')) :
    after? ['-', '>'] (c :: cs) = none := by
  by_cases dash : '-' = c
  · cases cs with
    | nil => simp [after?]
    | cons d rest =>
        have other : '>' ≠ d := fun head => start ⟨dash.symm, by rw [List.head?_cons, head]⟩
        simp [after?, other]
  · simp [after?, dash]

/-- A text is cut at its first arrow. -/
theorem cutArrow?_append {after : List Char} :
    ∀ {before : List Char}, Arrowless before →
      cutArrow? (before ++ '-' :: '>' :: after) = some (before, after)
  | [], _ => by simp [cutArrow?, after?]
  | c :: rest, arrowless => by
      obtain ⟨start, tail⟩ := arrowless_cons.mp arrowless
      have missed : after? ['-', '>'] (c :: (rest ++ '-' :: '>' :: after)) = none := by
        refine after?_arrow fun arrow => start ⟨arrow.1, ?_⟩
        cases rest with
        | nil => cases arrow.2
        | cons d more => exact arrow.2
      rw [List.cons_append, cutArrow?, missed, cutArrow?_append tail]
      rfl

theorem cutArrow?_eq_none : ∀ {cs : List Char}, Arrowless cs → cutArrow? cs = none
  | [], _ => rfl
  | c :: rest, arrowless => by
      obtain ⟨start, tail⟩ := arrowless_cons.mp arrowless
      rw [cutArrow?, after?_arrow start, cutArrow?_eq_none tail]
      rfl

end ReferenceGraph

/-! ## Lines of reports -/

/-- Blanks on a line. -/
structure Padding where
  text : List Char
  blank : ∀ c ∈ text, isBlank c = true
  unfed : '\n' ∉ text

/-- The name of a class in a graph. -/
structure NodeName where
  text : String
  nonempty : text.toList ≠ []
  unspaced : ∀ c ∈ text.toList, isBlank c = false
  unquoted : '"' ∉ text.toList
  unbracketed : '[' ∉ text.toList
  arrowless : ReferenceGraph.Arrowless text.toList

/-- Where a class comes from, as it stands behind its name. -/
structure Aside where
  text : List Char
  unclosed : ')' ∉ text
  unquoted : '"' ∉ text
  unbracketed : '[' ∉ text
  unfed : '\n' ∉ text

/-- A list of attributes, with the blanks in front of it. -/
structure AttributeList where
  gap : Padding
  text : List Char
  unfed : '\n' ∉ text

/-- An edge on a line of its own. -/
structure EdgeLine where
  indent : Padding
  source : NodeName
  beforeArrow : Padding
  afterArrow : Padding
  target : NodeName
  aside : Option Aside
  attributes : Option AttributeList
  beforeMark : Padding
  /-- The number of semicolons. -/
  marks : Nat
  trail : Padding

/-- A setting of a graph attribute. -/
structure SettingLine where
  indent : Padding
  key : List Char
  nonempty : key ≠ []
  word : ∀ c ∈ key, isAlphanumeric c = true ∨ c = '_'
  unheaded : ¬ "digraph".toList <+: key
  beforeSign : Padding
  value : List Char
  unfed : '\n' ∉ value
  arrowless : ReferenceGraph.Arrowless (key ++ beforeSign.text ++ '=' :: value)

/-- A line that says nothing on edges. -/
inductive RemarkLine where
  | blank (padding : Padding)
  | comment (indent : Padding) (text : List Char) (unfed : '\n' ∉ text)
  | setting (line : SettingLine)

/-- The line at the head of a graph. -/
structure HeaderLine where
  indent : Padding
  name : List Char
  unfed : '\n' ∉ name
  trail : Padding

/-- A line of a report. -/
inductive ReportLine where
  | header (line : HeaderLine)
  | edge (line : EdgeLine)
  | remark (line : RemarkLine)
  | closing (indent trail : Padding)

namespace Aside

def written (aside : Aside) : List Char :=
  ' ' :: '(' :: aside.text ++ [')']

end Aside

namespace AttributeList

def written (attributes : AttributeList) : List Char :=
  attributes.gap.text ++ '[' :: attributes.text ++ [']']

end AttributeList

namespace EdgeLine

def reference (line : EdgeLine) : Reference :=
  ⟨line.source.text, line.target.text⟩

/-- The source in quotes. -/
def sourceText (line : EdgeLine) : List Char :=
  '"' :: line.source.text.toList ++ ['"']

/-- The target in quotes, with its aside. -/
def targetText (line : EdgeLine) : List Char :=
  '"' :: line.target.text.toList ++ (line.aside.elim [] Aside.written) ++ ['"']

/-- All that stands behind the arrow. -/
def targetSide (line : EdgeLine) : List Char :=
  line.afterArrow.text ++ (line.targetText ++ line.attributes.elim [] AttributeList.written) ++
    line.beforeMark.text ++ List.replicate line.marks ';' ++ line.trail.text

def text (line : EdgeLine) : List Char :=
  line.indent.text ++
    (line.sourceText ++ line.beforeArrow.text ++ '-' :: '>' :: line.targetSide)

end EdgeLine

namespace ReportLine

/-- A line without its end. -/
def text : ReportLine → List Char
  | .header line =>
      line.indent.text ++ ("digraph \"".toList ++ line.name ++ "\" \x7b".toList) ++ line.trail.text
  | .edge line => line.text
  | .remark (.blank padding) => padding.text
  | .remark (.comment indent text _) => indent.text ++ '/' :: '/' :: text
  | .remark (.setting line) =>
      line.indent.text ++ (line.key ++ line.beforeSign.text ++ '=' :: line.value)
  | .closing indent trail => indent.text ++ ['}'] ++ trail.text

/-- The edges that a line is written for. -/
def edges : ReportLine → List Reference
  | .edge line => [line.reference]
  | _ => []

end ReportLine

namespace NodeName

theorem space_notMem (name : NodeName) : ' ' ∉ name.text.toList := fun member =>
  absurd (name.unspaced ' ' member) (by decide)

theorem filter_quotes (name : NodeName) :
    name.text.toList.filter (· ≠ '"') = name.text.toList := by
  refine List.filter_eq_self.mpr fun c member => decide_eq_true fun same => ?_
  exact name.unquoted (same ▸ member)

end NodeName

namespace ReferenceGraph

/-! ## Names -/

theorem withoutAnnotations_of_notMem :
    ∀ {cs : List Char}, ' ' ∉ cs → withoutAnnotations false cs = cs
  | [], _ => rfl
  | c :: rest, absent => by
      rw [List.mem_cons, not_or] at absent
      rw [withoutAnnotations, if_neg (by simp [Ne.symm absent.1]),
        withoutAnnotations_of_notMem absent.2]

/-- The rest of an aside is passed over up to its parenthesis. -/
theorem withoutAnnotations_inside {rest : List Char} :
    ∀ {cs : List Char}, ')' ∉ cs →
      withoutAnnotations true (cs ++ ')' :: rest) = withoutAnnotations false rest
  | [], _ => by simp [withoutAnnotations]
  | c :: more, absent => by
      rw [List.mem_cons, not_or] at absent
      have other : decide (c ≠ ')') = true := by simp [Ne.symm absent.1]
      rw [List.cons_append, withoutAnnotations, other, withoutAnnotations_inside absent.2]

theorem withoutAnnotations_written (aside : Aside) (rest : List Char) :
    ∀ {cs : List Char}, ' ' ∉ cs →
      withoutAnnotations false (cs ++ aside.written ++ rest) =
        cs ++ withoutAnnotations false rest
  | [], _ => by
      have opened : '(' ∉ [')'] := by decide
      have passed := @withoutAnnotations_inside rest ('(' :: aside.text)
        (by simp [aside.unclosed])
      simp only [Aside.written, List.nil_append, List.cons_append, List.append_assoc]
        at passed ⊢
      rw [withoutAnnotations, if_pos (by simp), passed]
  | c :: more, absent => by
      rw [List.mem_cons, not_or] at absent
      have tail := withoutAnnotations_written aside rest absent.2
      simp only [List.cons_append, List.append_assoc] at tail ⊢
      rw [withoutAnnotations, if_neg (by simp [Ne.symm absent.1]), tail]

/-- A text with nothing to be trimmed at its ends. -/
structure Tight (cs : List Char) : Prop where
  nonempty : cs ≠ []
  starts : ∀ first, cs.head? = some first → isBlank first = false
  ends : ∀ last, cs.getLast? = some last → isBlank last = false ∧ last ≠ ';'

theorem Tight.trimBlank {cs : List Char} (tight : Tight cs) : trimBlank cs = cs :=
  trimBlank_eq_self tight.starts fun last found => (tight.ends last found).1

theorem tight_between {first last : Char} (starts : isBlank first = false)
    (ends : isBlank last = false) (open_ended : last ≠ ';') (cs : List Char) :
    Tight (first :: cs ++ [last]) where
  nonempty := by simp
  starts := by simpa using starts
  ends := by
    intro other found
    rw [List.getLast?_concat] at found
    cases found
    exact ⟨ends, open_ended⟩

/-- All that stands around the text on one side of an edge is trimmed. -/
theorem trimmed_of_tight {front cs gap trail : List Char} (tight : Tight cs)
    (blank_front : ∀ c ∈ front, isBlank c = true) (blank_gap : ∀ c ∈ gap, isBlank c = true)
    (marks : Nat) (blank_trail : ∀ c ∈ trail, isBlank c = true) :
    trimBlank (dropBack (· = ';')
        (trimBlank (front ++ cs ++ gap ++ List.replicate marks ';' ++ trail))) = cs := by
  have unmarked : ∀ last, (cs ++ gap).getLast? = some last → decide (last = ';') = false := by
    intro last found
    rw [List.getLast?_append] at found
    cases ending : gap.getLast? with
    | none =>
        rw [ending, Option.none_or] at found
        simpa using (tight.ends last found).2
    | some other =>
        rw [ending, Option.some_or] at found
        have blank := blank_gap last (Option.some.inj found ▸ List.mem_of_getLast? ending)
        refine decide_eq_false fun mark => ?_
        rw [mark] at blank
        exact absurd blank (by decide)
  have inner : trimBlank (front ++ cs ++ gap ++ List.replicate marks ';' ++ trail) =
      trimBlank (cs ++ gap ++ List.replicate marks ';') := by
    rw [trimBlank, trimBy_of_append_all blank_trail, List.append_assoc, List.append_assoc,
      trimBy_append_of_all blank_front, ← List.append_assoc, trimBlank]
  have outer : trimBlank (cs ++ gap) = cs := by
    rw [trimBlank, trimBy_of_append_all blank_gap]
    exact tight.trimBlank
  rw [inner]
  cases marks with
  | zero =>
      have whole : dropBack (· = ';') cs = cs :=
        dropBack_eq_self fun last found => by simpa using (tight.ends last found).2
      rw [List.replicate_zero, List.append_nil, outer, whole, tight.trimBlank]
  | succ more =>
      have kept : trimBlank (cs ++ gap ++ List.replicate (more + 1) ';') =
          cs ++ gap ++ List.replicate (more + 1) ';' := by
        refine trimBlank_eq_self (fun first found => tight.starts first ?_) fun last found => ?_
        · rw [← found, List.append_assoc, List.head?_append_of_ne_nil _ tight.nonempty]
        · rw [List.replicate_succ', ← List.append_assoc, List.getLast?_concat] at found
          cases found
          decide
      have marked : ∀ c ∈ List.replicate (more + 1) ';', decide (c = ';') = true := by
        intro c member
        simpa using (List.mem_replicate.mp member).2
      rw [kept, dropBack_append_of_all marked, dropBack_eq_self unmarked, outer]

/-! ## Sides of an edge -/

theorem withoutAttributes_of_notMem {cs : List Char} (absent : '[' ∉ cs) :
    withoutAttributes cs = cs := by
  unfold withoutAttributes
  split
  · rename_i name rest cut
    exact absurd (by simp [(cutAt?_eq_some_iff.mp cut).1]) absent
  · rfl

theorem withoutAttributes_written (attributes : AttributeList) {cs : List Char} (tight : Tight cs)
    (absent : '[' ∉ cs) : withoutAttributes (cs ++ attributes.written) = cs := by
  have unopened : '[' ∉ cs ++ attributes.gap.text := by
    rw [List.mem_append, not_or]
    exact ⟨absent, fun member => absurd (attributes.gap.blank _ member) (by decide)⟩
  have cut : cutAt? '[' (cs ++ attributes.written) =
      some (cs ++ attributes.gap.text, attributes.text ++ [']']) :=
    cutAt?_eq_some_iff.mpr ⟨by simp [AttributeList.written], unopened⟩
  have closed : (cs ++ attributes.written).getLast? = some ']' := by
    rw [AttributeList.written, ← List.append_assoc, List.getLast?_concat]
  rw [withoutAttributes, cut]
  simp only [closed, if_true]
  rw [trimBlank, trimBy_of_append_all attributes.gap.blank]
  exact tight.trimBlank

/-- The name that is left of a side, once what is left of it is the name. -/
theorem nodeName?_of_trimmed {side raw : List Char} {name : NodeName}
    (trimmed : trimBlank (dropBack (· = ';') (trimBlank side)) = raw)
    (clean : cleanChars (withoutAttributes raw) = name.text.toList) :
    nodeName? side = some name.text := by
  have whole : trimBlank name.text.toList = name.text.toList :=
    trimBlank_eq_self (fun _ found => name.unspaced _ (List.mem_of_head? found))
      fun _ found => name.unspaced _ (List.mem_of_getLast? found)
  have filled : name.text.toList.isEmpty = false := by simpa using name.nonempty
  have unspaced : name.text.toList.any isBlank = false := by
    rw [List.any_eq_false]
    exact fun c member => by simp [name.unspaced c member]
  rw [nodeName?]
  simp only [trimmed, clean, whole, filled, unspaced, Bool.or_self, Bool.false_eq_true, if_false,
    String.ofList_toList]

theorem nodeName?_source (line : EdgeLine) :
    nodeName? (line.sourceText ++ line.beforeArrow.text) = some line.source.text := by
  have tight : Tight line.sourceText := tight_between (by decide) (by decide) (by decide) _
  have trimmed := @trimmed_of_tight [] _ _ [] tight (by simp) line.beforeArrow.blank 0 (by simp)
  refine nodeName?_of_trimmed (by simpa using trimmed) ?_
  have unspaced : ' ' ∉ line.sourceText := by
    simp [EdgeLine.sourceText, line.source.space_notMem]
  rw [withoutAttributes_of_notMem (by simp [EdgeLine.sourceText, line.source.unbracketed]),
    cleanChars, withoutAnnotations_of_notMem unspaced, EdgeLine.sourceText]
  simpa using line.source.filter_quotes

theorem cleanChars_targetText (line : EdgeLine) :
    cleanChars line.targetText = line.target.text.toList := by
  have unspaced : ' ' ∉ '"' :: line.target.text.toList := by
    simp [line.target.space_notMem]
  have clean : withoutAnnotations false line.targetText =
      '"' :: line.target.text.toList ++ ['"'] := by
    rw [EdgeLine.targetText]
    cases line.aside with
    | none =>
        rw [Option.elim_none, List.append_nil]
        exact withoutAnnotations_of_notMem (by simp [line.target.space_notMem])
    | some aside => exact withoutAnnotations_written aside ['"'] unspaced
  rw [cleanChars, clean]
  simpa using line.target.filter_quotes

theorem nodeName?_target (line : EdgeLine) :
    nodeName? line.targetSide = some line.target.text := by
  have quoted : Tight line.targetText := tight_between (by decide) (by decide) (by decide) _
  have unbracketed : '[' ∉ line.targetText := by
    rw [EdgeLine.targetText]
    cases line.aside with
    | none => simp [line.target.unbracketed]
    | some aside =>
        simp [Aside.written, line.target.unbracketed, aside.unbracketed]
  rw [EdgeLine.targetSide]
  cases line.attributes with
  | none =>
      rw [Option.elim_none, List.append_nil]
      refine nodeName?_of_trimmed (trimmed_of_tight quoted line.afterArrow.blank
        line.beforeMark.blank line.marks line.trail.blank) ?_
      rw [withoutAttributes_of_notMem unbracketed, cleanChars_targetText]
  | some attributes =>
      have tight : Tight (line.targetText ++ attributes.written) := by
        have whole : line.targetText ++ attributes.written = '"' :: (line.target.text.toList ++
            line.aside.elim [] Aside.written ++ '"' :: attributes.gap.text ++
            '[' :: attributes.text) ++ [']'] := by
          simp [EdgeLine.targetText, AttributeList.written]
        rw [whole]
        exact tight_between (by decide) (by decide) (by decide) _
      rw [Option.elim_some]
      refine nodeName?_of_trimmed (trimmed_of_tight tight line.afterArrow.blank
        line.beforeMark.blank line.marks line.trail.blank) ?_
      rw [withoutAttributes_written attributes quoted unbracketed, cleanChars_targetText]

/-! ## Reading a line -/

/-- The ranges of white space. -/
def blankRanges : List (Nat × Nat) := [
  (9, 13), (0x20, 0x20), (0x85, 0x85), (0xA0, 0xA0), (0x1680, 0x1680), (0x2000, 0x200A),
  (0x2028, 0x2029), (0x202F, 0x202F), (0x205F, 0x205F), (0x3000, 0x3000)]

theorem exists_range_of_isBlank {c : Char} (blank : isBlank c = true) :
    ∃ range ∈ blankRanges, range.1 ≤ c.toNat ∧ c.toNat ≤ range.2 := by
  simp only [isBlank, Bool.or_eq_true, Bool.and_eq_true, decide_eq_true_eq, beq_iff_eq] at blank
  simp only [blankRanges, List.exists_mem_cons_iff, List.not_mem_nil, false_and, exists_false]
  omega

/-- Whether ranges have no code point in common. -/
def apart (first second : Nat × Nat) : Bool :=
  Nat.blt first.2 second.1 || Nat.blt second.2 first.1

/-- White space lies between the ranges of letters and digits. -/
theorem apart_blankRanges :
    (alphanumericRanges.all fun range => blankRanges.all (apart range)) = true := by
  decide +kernel

theorem not_isAlphanum_blankRanges :
    (blankRanges.all fun range => (List.range' range.1 (range.2 + 1 - range.1)).all fun n =>
      !(Char.ofNat n).isAlphanum) = true := by
  decide +kernel

theorem isAlphanumeric_of_isBlank {c : Char} (blank : isBlank c = true) :
    isAlphanumeric c = false := by
  obtain ⟨gap, listed, low, high⟩ := exists_range_of_isBlank blank
  have letterless : c.isAlphanum = false := by
    have within : c.toNat ∈ List.range' gap.1 (gap.2 + 1 - gap.1) :=
      List.mem_range'_1.mpr ⟨low, by omega⟩
    have plain := List.all_eq_true.mp
      (List.all_eq_true.mp not_isAlphanum_blankRanges gap listed) c.toNat within
    rwa [Bool.not_eq_true', Char.ofNat_toNat] at plain
  rw [isAlphanumeric, letterless, Bool.false_or, List.any_eq_false]
  intro range member within
  have separate := List.all_eq_true.mp
    (List.all_eq_true.mp apart_blankRanges range member) gap listed
  simp only [Bool.and_eq_true, decide_eq_true_eq] at within
  simp only [apart, Bool.or_eq_true, Nat.blt_eq] at separate
  omega

/-- A line that starts with something else is no remark and no closing brace. -/
theorem ofTrimmedLine_of_head {c : Char} {rest : List Char} (slash : c ≠ '/') (brace : c ≠ '}') :
    ofTrimmedLine (c :: rest) =
      if (after? "digraph".toList (c :: rest)).isSome then
        if (c :: rest).getLast? = some '{' then .ok [] else .error .unopenedHeader
      else match cutArrow? (c :: rest) with
        | some (source, target) =>
            match nodeName? source, nodeName? target with
            | none, _ => .error (.badSource (String.ofList (c :: rest)))
            | some _, none => .error (.badTarget (String.ofList (c :: rest)))
            | some source, some target => .ok [⟨source, target⟩]
        | none =>
            if isSetting (c :: rest) then .ok []
            else .error (.noEdge (String.ofList (c :: rest))) := by
  have plain : ((c :: rest).isEmpty || (after? ['/', '/'] (c :: rest)).isSome ||
      decide (c :: rest = ['}'])) = false := by
    simp [after?, Ne.symm slash, brace]
  rw [ofTrimmedLine, plain]
  rfl

theorem trimBlank_padded {indent body trail : List Char} (tight : Tight body)
    (blank_indent : ∀ c ∈ indent, isBlank c = true) (blank_trail : ∀ c ∈ trail, isBlank c = true) :
    trimBlank (indent ++ body ++ trail) = body := by
  rw [trimBlank, trimBy_of_append_all blank_trail, trimBy_append_of_all blank_indent]
  exact tight.trimBlank

/-- Nothing is trimmed up to a character that is no blank. -/
theorem trimBlank_up_to {indent cs ds : List Char} {c : Char}
    (blank_indent : ∀ c ∈ indent, isBlank c = true)
    (starts : ∀ first, (cs ++ [c]).head? = some first → isBlank first = false)
    (keeps : isBlank c = false) :
    trimBlank (indent ++ (cs ++ c :: ds)) = cs ++ c :: dropBack isBlank ds := by
  have first : (cs ++ c :: ds).dropWhile isBlank = cs ++ c :: ds :=
    dropWhile_eq_self fun first found => starts first <| by
      cases cs with
      | nil => exact found
      | cons d more => exact found
  rw [trimBlank, trimBy_append_of_all blank_indent, trimBy, first, dropBack_append_cons keeps]

theorem ofLine_blank (padding : Padding) : ofLine padding.text = .ok [] := by
  have gone : trimBlank padding.text = [] := by
    have whole := trimBy_of_append_all padding.blank []
    rwa [List.nil_append] at whole
  rw [ofLine, gone]
  rfl

theorem ofLine_comment (indent : Padding) (text : List Char) :
    ofLine (indent.text ++ '/' :: '/' :: text) = .ok [] := by
  have trimmed := @trimBlank_up_to _ ['/'] text '/' indent.blank (by simp; decide) (by decide)
  rw [List.singleton_append, List.singleton_append] at trimmed
  rw [ofLine, trimmed]
  rfl

theorem ofLine_closing (indent trail : Padding) :
    ofLine (indent.text ++ ['}'] ++ trail.text) = .ok [] := by
  have tight : Tight ['}'] := ⟨by simp, by simp; decide, by simp; decide⟩
  rw [ofLine, trimBlank_padded tight indent.blank trail.blank]
  rfl

theorem ofLine_header (line : HeaderLine) : ofLine (ReportLine.header line).text = .ok [] := by
  have shape : "digraph \"".toList ++ line.name ++ "\" \x7b".toList =
      'd' :: ("igraph \"".toList ++ line.name ++ ['"', ' ']) ++ ['{'] := by
    simp
  have headed : (after? "digraph".toList
      ('d' :: ("igraph \"".toList ++ line.name ++ ['"', ' ']) ++ ['{'])).isSome = true := by
    simp [after?]
  rw [ReportLine.text, ofLine, shape,
    trimBlank_padded (tight_between (by decide) (by decide) (by decide) _) line.indent.blank
      line.trail.blank,
    List.cons_append, ofTrimmedLine_of_head (by decide) (by decide), ← List.cons_append,
    if_pos headed, List.getLast?_concat, if_pos rfl]

theorem nodeName?_dropBack (side : List Char) :
    nodeName? (dropBack isBlank side) = nodeName? side := by
  have same : trimBlank (dropBack isBlank side) = trimBlank side := trimBy_dropBack side
  simp only [nodeName?, same]

theorem ofLine_edge (line : EdgeLine) : ofLine line.text = .ok [line.reference] := by
  have trimmed := @trimBlank_up_to _ (line.sourceText ++ line.beforeArrow.text ++ ['-'])
    line.targetSide '>' line.indent.blank (by simp [EdgeLine.sourceText]; decide) (by decide)
  simp only [List.append_assoc, List.singleton_append] at trimmed
  have arrowless : Arrowless (line.sourceText ++ line.beforeArrow.text) := by
    have dashless : '-' ∉ line.beforeArrow.text := fun member =>
      absurd (line.beforeArrow.blank _ member) (by decide)
    rw [EdgeLine.sourceText, List.append_assoc, List.singleton_append,
      arrowless_append_cons (by decide) (by decide), arrowless_cons]
    exact ⟨⟨by simp, line.source.arrowless⟩, arrowless_of_notMem dashless⟩
  have cut := @cutArrow?_append (dropBack isBlank line.targetSide) _ arrowless
  have source := nodeName?_source line
  rw [EdgeLine.sourceText] at cut source
  simp only [List.cons_append, List.append_assoc, List.nil_append] at cut source
  rw [ofLine, EdgeLine.text, List.append_assoc, trimmed, EdgeLine.sourceText]
  simp only [List.cons_append, List.append_assoc, List.nil_append]
  rw [ofTrimmedLine_of_head (by decide) (by decide), cut]
  simp only [source, nodeName?_dropBack, nodeName?_target]
  rfl

/-- What starts with a key and goes on with a blank or a sign is no header. -/
theorem after?_digraph_of_key (line : SettingLine) (rest : List Char) :
    after? "digraph".toList (line.key ++ line.beforeSign.text ++ '=' :: rest) = none := by
  refine Option.eq_none_iff_forall_ne_some.mpr fun tail found => ?_
  have shape := eq_append_of_after? found
  rw [List.append_assoc] at shape
  rcases List.append_eq_append_iff.mp shape with ⟨more, word, split⟩ | ⟨more, key, _⟩
  · -- The key ends within the word, so the word goes on with what stands behind the key.
    cases more with
    | nil => exact line.unheaded (by rw [word, List.append_nil])
    | cons c more =>
        have inWord : c ∈ "digraph".toList := by simp [word]
        have behind : isBlank c = true ∨ c = '=' := by
          cases gap : line.beforeSign.text with
          | nil =>
              rw [gap] at split
              exact .inr (List.cons.inj split).1.symm
          | cons d others =>
              rw [gap] at split
              refine .inl (line.beforeSign.blank c ?_)
              rw [gap, (List.cons.inj split).1]
              exact List.mem_cons_self
        have letters : "digraph".toList.any (fun c => isBlank c || c == '=') = false := by decide
        exact List.any_eq_false.mp letters c inWord (by simpa using behind)
  · exact line.unheaded ⟨more, key.symm⟩

theorem not_blank_of_key (line : SettingLine) : ∀ c ∈ line.key, isBlank c = false := by
  intro c member
  refine Bool.eq_false_iff.mpr fun blank => ?_
  rcases line.word c member with letter | rfl
  · rw [isAlphanumeric_of_isBlank blank] at letter
    cases letter
  · exact absurd blank (by decide)

theorem isSetting_of_key (line : SettingLine) (rest : List Char) :
    isSetting (line.key ++ line.beforeSign.text ++ '=' :: rest) = true := by
  have unsigned : '=' ∉ line.key ++ line.beforeSign.text := by
    rw [List.mem_append, not_or]
    refine ⟨fun member => ?_, fun member => absurd (line.beforeSign.blank _ member) (by decide)⟩
    rcases line.word _ member with letter | same
    · exact absurd letter (by decide +kernel)
    · exact absurd same (by decide)
  have cut : cutAt? '=' (line.key ++ line.beforeSign.text ++ '=' :: dropBack (· = ';') rest) =
      some (line.key ++ line.beforeSign.text, dropBack (· = ';') rest) :=
    cutAt?_eq_some_iff.mpr ⟨rfl, unsigned⟩
  have solid := not_blank_of_key line
  have key : trimBlank (line.key ++ line.beforeSign.text) = line.key := by
    rw [trimBlank, trimBy_of_append_all line.beforeSign.blank]
    exact trimBlank_eq_self (fun _ found => solid _ (List.mem_of_head? found))
      fun _ found => solid _ (List.mem_of_getLast? found)
  rw [isSetting, dropBack_append_cons (by decide), cut]
  simp only [key]
  simpa [line.nonempty] using line.word

theorem ofLine_setting (line : SettingLine) :
    ofLine (line.indent.text ++ (line.key ++ line.beforeSign.text ++ '=' :: line.value)) =
      .ok [] := by
  obtain ⟨c, more, key⟩ := List.exists_cons_of_ne_nil line.nonempty
  have word := line.word c (by simp [key])
  have solid := not_blank_of_key line c (by simp [key])
  have other : ∀ mark, isAlphanumeric mark = false → mark ≠ '_' → c ≠ mark := by
    rintro mark letterless unlined rfl
    rcases word with letter | same
    · rw [letterless] at letter
      cases letter
    · exact unlined same
  have trimmed := @trimBlank_up_to _ (line.key ++ line.beforeSign.text) line.value '='
    line.indent.blank (by simpa [key] using solid) (by decide)
  have arrowless : Arrowless (line.key ++ line.beforeSign.text ++
      '=' :: dropBack isBlank line.value) := by
    have whole := (arrowless_append_cons (by decide) (by decide)).mp line.arrowless
    obtain ⟨back, shape, _⟩ := exists_append_dropBack (p := isBlank) line.value
    refine (arrowless_append_cons (by decide) (by decide)).mpr ⟨whole.1, fun arrow => whole.2 ?_⟩
    rw [shape]
    exact arrow.trans (List.prefix_append _ back).isInfix
  have unheaded := after?_digraph_of_key line (dropBack isBlank line.value)
  have setting := isSetting_of_key line (dropBack isBlank line.value)
  have uncut := cutArrow?_eq_none arrowless
  rw [ofLine, trimmed]
  rw [key] at unheaded setting uncut ⊢
  simp only [List.cons_append] at unheaded setting uncut ⊢
  rw [ofTrimmedLine_of_head (other '/' (by decide +kernel) (by decide))
    (other '}' (by decide +kernel) (by decide)), unheaded, uncut, setting]
  rfl

/-- **A line is read as what it is written for.** -/
theorem ofLine_line (line : ReportLine) : ofLine line.text = .ok line.edges := by
  cases line with
  | header line => exact ofLine_header line
  | edge line => exact ofLine_edge line
  | closing indent trail => exact ofLine_closing indent trail
  | remark line =>
      cases line with
      | blank padding => exact ofLine_blank padding
      | comment indent text _ => exact ofLine_comment indent text
      | setting line => exact ofLine_setting line

example : ofLine "  \"a.B\" -> \"c.D (not found)\" [style=dotted];".toList =
    .ok [⟨"a.B", "c.D"⟩] := by
  decide +kernel

end ReferenceGraph

end DependencyAudit
