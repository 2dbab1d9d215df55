/-
# DependencyAudit.Proofs.Descents -- scanners of octets and the machine of characters

What a scanner does is told in two ways.  The first is about octets: from a position it comes to
an outcome, another position and some names, and it has been sound on the way (`Reaches`).  That
it is sound is part of it, so that nothing has to be shown twice: a rule for a part of a scanner
is one for what the part finds and for its safety (`Reaches.bind`, `Reaches.turning`,
`Reaches.calling`).

The second is about characters: while a scanner reads some of them, the machine of signatures
comes from one state to another, and both name the same; or the scanner fails, and then the
machine does not accept (`Follows`).  The rules for it are those for the first way, with the
machine beside them (`Follows.bind`).

How far a scanner comes before it fails is left open.  It fails, and it has found all that the
machine has found.
-/
import DependencyAudit.Proofs.DescentBudgets
import DependencyAudit.Proofs.Positions
import DependencyAudit.Proofs.Signatures
import Mathlib.Data.List.TakeWhile
import Mathlib.Order.Basic

namespace DependencyAudit.TypeText.Descent

open DependencyAudit.Text

set_option autoImplicit false

/-! ## Safety -/

/-- Nothing has gone wrong: positions are inside of the text, cuts are between characters, and
calls and turns have moved on. -/
def Event.Safe (text : String) : Event → Prop
  | .reached position => position ≤ (Utf8.encodeString text).length
  | .sliced start stop => start ≤ stop ∧ Boundary text start ∧ Boundary text stop
  | .returned start stop => start < stop
  | .turned start stop => start < stop

/-- The position is inside of the text, and all that has happened on the way to it was safe. -/
structure Sound (text : String) (memory : Memory) : Prop where
  inside : memory.position ≤ (Utf8.encodeString text).length
  safe : ∀ event ∈ memory.trail, event.Safe text

/-! ## Scans that end -/

/-- From a position a scan comes to an outcome and another position, adds some names, and stays
sound. -/
def Reaches {α : Type} (text : String) (scanner : Scanner α) (start : Nat)
    (outcome : Except Fault α) (stop : Nat) (found : List String) : Prop :=
  ∀ names trail, Sound text ⟨start, names, trail⟩ →
    ∃ longer, Sound text ⟨stop, names.insertAll found, longer⟩ ∧
      scanner ⟨start, names, trail⟩ = some (outcome, ⟨stop, names.insertAll found, longer⟩)

theorem insertAll_insertAll (names : NameSet) (found more : List String) :
    (names.insertAll found).insertAll more = names.insertAll (found ++ more) := by
  simp only [NameSet.insertAll, List.foldl_append]

section Rules

variable {text : String} {α β : Type} {start middle stop : Nat} {found more : List String}

theorem Reaches.bind {scanner : Scanner α} {next : α → Scanner β} {value : α}
    {outcome : Except Fault β} (first : Reaches text scanner start (.ok value) middle found)
    (second : Reaches text (next value) middle outcome stop more) :
    Reaches text (scanner >>= next) start outcome stop (found ++ more) := by
  intro names trail sound
  obtain ⟨longer, sound', ran⟩ := first names trail sound
  obtain ⟨longest, sound'', rest⟩ := second (names.insertAll found) longer sound'
  rw [insertAll_insertAll] at sound'' rest
  refine ⟨longest, sound'', ?_⟩
  rw [← rest]
  change (scanner ⟨start, names, trail⟩).bind _ = _
  rw [ran]
  rfl

theorem Reaches.bind_error {scanner : Scanner α} {next : α → Scanner β} {fault : Fault}
    (first : Reaches text scanner start (.error fault) stop found) :
    Reaches text (scanner >>= next) start (.error fault) stop found := by
  intro names trail sound
  obtain ⟨longer, sound', ran⟩ := first names trail sound
  refine ⟨longer, sound', ?_⟩
  change (scanner ⟨start, names, trail⟩).bind _ = _
  rw [ran]
  rfl

theorem reaches_pure (value : α) : Reaches text (pure value) start (.ok value) start [] :=
  fun _ trail sound => ⟨trail, sound, rfl⟩

theorem reaches_position : Reaches text position start (.ok start) start [] :=
  fun _ trail sound => ⟨trail, sound, rfl⟩

theorem reaches_refuse : Reaches text refuse start (.error .malformed) start [] :=
  fun _ trail sound => ⟨trail, sound, rfl⟩

theorem reaches_insert (name : String) : Reaches text (insert name) start (.ok ()) start [name] :=
  fun _ trail sound => ⟨trail, ⟨sound.inside, sound.safe⟩, rfl⟩

theorem reaches_observe {event : Event} (safe : event.Safe text) :
    Reaches text (observe event) start (.ok ()) start [] :=
  fun _ trail sound =>
    ⟨event :: trail, ⟨sound.inside, List.forall_mem_cons.mpr ⟨safe, sound.safe⟩⟩, rfl⟩

theorem reaches_moveTo (inside : stop ≤ (Utf8.encodeString text).length) :
    Reaches text (moveTo stop) start (.ok ()) stop [] :=
  fun _ trail sound =>
    ⟨.reached stop :: trail, ⟨inside, List.forall_mem_cons.mpr ⟨inside, sound.safe⟩⟩, rfl⟩

theorem reaches_advance (inside : start < (Utf8.encodeString text).length) :
    Reaches text advance start (.ok ()) (start + 1) [] :=
  reaches_position.bind (reaches_moveTo inside)

theorem reaches_peek :
    Reaches text (peek text) start (.ok (Utf8.encodeString text)[start]?) start [] :=
  reaches_position.bind (reaches_pure _)

/-- A turn of a loop is observed, and must have moved on. -/
theorem Reaches.turning {body : Scanner α} {value : α}
    (reaches : Reaches text body start (.ok value) stop found) (moves : start < stop) :
    Reaches text (turning body) start (.ok value) stop found := by
  have safe : (Event.turned start stop).Safe text := moves
  refine reaches_position.bind ?_
  rw [← List.append_nil found]
  refine reaches.bind (reaches_position.bind ?_)
  exact (reaches_observe safe).bind (reaches_pure value)

theorem Reaches.turning_error {body : Scanner α} {fault : Fault}
    (reaches : Reaches text body start (.error fault) stop found) :
    Reaches text (Descent.turning body) start (.error fault) stop found :=
  reaches_position.bind reaches.bind_error

/-- A call is observed if it returns, and must have moved on then. -/
theorem Reaches.calling {body : Scanner Unit}
    (reaches : Reaches text body start (.ok ()) stop found) (moves : start < stop) :
    Reaches text (calling body) start (.ok ()) stop found := by
  have safe : (Event.returned start stop).Safe text := moves
  refine reaches_position.bind ?_
  rw [← List.append_nil found]
  exact reaches.bind (reaches_position.bind (reaches_observe safe))

theorem Reaches.calling_error {body : Scanner Unit} {fault : Fault}
    (reaches : Reaches text body start (.error fault) stop found) :
    Reaches text (Descent.calling body) start (.error fault) stop found :=
  reaches_position.bind reaches.bind_error

end Rules

/-! ## Scanning characters -/

section Characters

variable {text : String} {front cs : List Char} {c : Char}

theorem reaches_peek_at (parted : text.toList = front ++ cs) :
    Reaches text (peek text) (width front) (.ok (Utf8.encode cs).head?) (width front) [] := by
  rw [← getElem?_width parted]
  exact reaches_peek

theorem width_concat_ascii (ascii : c.toNat < 128) : width (front ++ [c]) = width front + 1 := by
  rw [width_append, width_singleton, ← String.length_utf8EncodeChar, octets_of_ascii ascii]
  rfl

theorem reaches_advance_at (ascii : c.toNat < 128) (parted : text.toList = front ++ c :: cs) :
    Reaches text advance (width front) (.ok ()) (width (front ++ [c])) [] := by
  have inside : width (front ++ [c]) ≤ (Utf8.encodeString text).length :=
    width_le (by rw [parted, List.append_assoc, List.singleton_append])
  rw [width_concat_ascii ascii] at inside ⊢
  exact reaches_advance inside

theorem reaches_expect (ascii : c.toNat < 128) (parted : text.toList = front ++ c :: cs) :
    Reaches text (expect text c) (width front) (.ok ()) (width (front ++ [c])) [] := by
  refine (reaches_peek_at parted).bind ?_
  rw [if_first ascii rfl]
  exact reaches_advance_at ascii parted

theorem reaches_expect_error (ascii : c.toNat < 128) (parted : text.toList = front ++ cs)
    (other : cs.head? ≠ some c) :
    Reaches text (expect text c) (width front) (.error .malformed) (width front) [] := by
  refine (reaches_peek_at parted).bind ?_
  rw [if_not_first ascii other]
  exact reaches_refuse

/-- Octets that pass are passed over one by one. -/
theorem reaches_skip_octets {passes : UInt8 → Bool} {octets rest : List UInt8}
    (kept : ∀ next ∈ octets, passes next = true) (ends : rest.head?.any passes = false) :
    ∀ {start budget : Nat}, (Utf8.encodeString text).drop start = octets ++ rest →
      octets.length < budget →
        Reaches text (skip text passes budget) start (.ok ()) (start + octets.length) [] := by
  induction octets with
  | nil =>
      intro start budget behind large
      obtain ⟨less, rfl, -⟩ := exists_budget large
      refine reaches_peek.bind ?_
      rw [← List.head?_drop, behind, List.nil_append, if_neg (by simp [ends])]
      exact reaches_pure ()
  | cons next octets passed =>
      intro start budget behind large
      rw [List.length_cons] at large
      obtain ⟨less, rfl, fits⟩ := exists_budget large
      obtain ⟨first, others⟩ := List.forall_mem_cons.mp kept
      obtain ⟨inside, later⟩ := drop_succ behind
      have goes := passed others later fits
      rw [Nat.add_right_comm, Nat.add_assoc] at goes
      refine reaches_peek.bind ?_
      rw [← List.head?_drop, behind, List.cons_append, List.head?_cons,
        if_pos (by simpa using first)]
      exact ((reaches_advance inside).turning (Nat.lt_succ_self start)).bind goes

/-- Characters are passed over up to the first that does not pass. -/
theorem reaches_skip {passes : UInt8 → Bool} {keeps : Char → Bool} (reads : Reads passes keeps)
    (parted : text.toList = front ++ cs) {budget : Nat} (large : width cs < budget) :
    Reaches text (skip text passes budget) (width front) (.ok ())
      (width (front ++ cs.takeWhile keeps)) [] := by
  have split := List.takeWhile_append_dropWhile (p := keeps) (l := cs)
  have kept : ∀ d ∈ cs.takeWhile keeps, keeps d = true := fun d => List.mem_takeWhile_imp
  have ends : (cs.dropWhile keeps).head?.any keeps = false := by
    have stops := List.head?_dropWhile_not keeps cs
    cases shape : cs.dropWhile keeps with
    | nil => rfl
    | cons d rest =>
        rw [shape] at stops
        exact stops
  have behind : (Utf8.encodeString text).drop (width front) =
      Utf8.encode (cs.takeWhile keeps) ++ Utf8.encode (cs.dropWhile keeps) := by
    rw [drop_width parted, ← Utf8.encode_append, split]
  have short : (Utf8.encode (cs.takeWhile keeps)).length < budget := by
    rw [← split, width_append] at large
    exact lt_of_le_of_lt (Nat.le_add_right _ _) large
  have goes := reaches_skip_octets (all_of_reads reads kept)
    (by rw [head?_of_reads reads, ends]) behind short
  rwa [width_append]

/-- An identifier goes up to the first character that ends one. -/
def continues (c : Char) : Bool :=
  decide (c ≠ '<' ∧ c ≠ ';' ∧ c ≠ '.')

theorem reads_ne {d : Char} (ascii : d.toNat < 128) :
    Reads (fun next => decide (next ≠ octet d)) (fun c => decide (c ≠ d)) := by
  intro c next member
  simp only [ne_eq, mem_octets_iff ascii member]

theorem reads_continues :
    Reads (fun next => decide (next ≠ octet '<' ∧ next ≠ octet ';' ∧ next ≠ octet '.'))
      continues := by
  intro c next member
  simp (disch := decide) only [continues, ne_eq, mem_octets_iff _ member]

theorem reaches_slice {inside rest : List Char}
    (parted : text.toList = front ++ (inside ++ rest)) (start : Nat) :
    Reaches text (slice text (width front) (width (front ++ inside))) start
      (.ok (String.ofList inside)) start [] := by
  have safe : (Event.sliced (width front) (width (front ++ inside))).Safe text := by
    have whole : text.toList = (front ++ inside) ++ rest := by rw [parted, List.append_assoc]
    exact ⟨by simp, boundary_width parted, boundary_width whole⟩
  refine (reaches_observe safe).bind ?_
  rw [slice?_eq parted]
  exact reaches_pure _

theorem reaches_identifier (parted : text.toList = front ++ cs) {budget : Nat}
    (large : width cs < budget) :
    Reaches text (identifier text budget) (width front)
      (.ok (String.ofList (cs.takeWhile continues))) (width (front ++ cs.takeWhile continues))
      [] := by
  have split := List.takeWhile_append_dropWhile (p := continues) (l := cs)
  refine reaches_position.bind ?_
  refine (reaches_skip reads_continues parted large).bind ?_
  refine reaches_position.bind ?_
  exact reaches_slice (by rw [split, parted]) _

end Characters

/-! ## The work of the machine -/

section Following

open Signature (State Move Reading)

/-- The classes that the machine of signatures names from a state on, and whether it accepts. -/
def answer (state : State) (cs : List Char) : List String × Bool :=
  ((Signature.run state cs).named, ((Signature.run state cs).state.map State.accepts).getD false)

theorem answer_nil (state : State) : answer state [] = ([], state.accepts) := rfl

theorem answer_move {state next : State} {c : Char} (moves : state.step c = .move next)
    (cs : List Char) : answer state (c :: cs) = answer next cs := by
  simp only [answer, Signature.run, moves]

theorem answer_names {state next : State} {c : Char} {name : String}
    (names : state.step c = .names name next) (cs : List Char) :
    answer state (c :: cs) = (name :: (answer next cs).1, (answer next cs).2) := by
  simp only [answer, Signature.run, names]

theorem answer_refuse {state : State} {c : Char} (refuses : state.step c = .refuse)
    (cs : List Char) : answer state (c :: cs) = ([], false) := by
  simp only [answer, Signature.run, refuses, Option.map_none, Option.getD_none]

/-- A scan either does the work of the machine from one state to another, on some characters at
least, or fails where the machine does not accept; and it finds what the machine names. -/
def Follows (text : String) (scanner : Scanner Unit) (least : Nat) (state next : State)
    (cs : List Char) : Prop :=
  ∀ front, text.toList = front ++ cs →
    (∃ used rest found, cs = used ++ rest ∧ least ≤ used.length ∧
      answer state cs = (found ++ (answer next rest).1, (answer next rest).2) ∧
        Reaches text scanner (width front) (.ok ()) (width (front ++ used)) found) ∨
    ∃ stop found, answer state cs = (found, false) ∧
      Reaches text scanner (width front) (.error .malformed) stop found

variable {text : String} {least more : Nat} {state middle last : State} {cs : List Char}
  {c : Char}

theorem Follows.bind {scanner : Scanner Unit} {next : Unit → Scanner Unit}
    (first : Follows text scanner least state middle cs)
    (second : ∀ used rest, cs = used ++ rest → least ≤ used.length →
      Follows text (next ()) 0 middle last rest) :
    Follows text (scanner >>= next) least state last cs := by
  intro front parted
  rcases first front parted with ⟨used, rest, found, rfl, enough, same, reaches⟩ |
    ⟨stop, found, fails, reaches⟩
  · rw [← List.append_assoc] at parted
    rcases second used rest rfl enough _ parted with
      ⟨used', rest', found', rfl, _, same', reaches'⟩ | ⟨stop, found', fails, reaches'⟩
    · refine .inl ⟨used ++ used', rest', found ++ found', by simp, ?_, ?_, ?_⟩
      · rw [List.length_append]
        exact Nat.le_add_right_of_le enough
      · rw [same, same', List.append_assoc]
      · rw [← List.append_assoc]
        exact reaches.bind reaches'
    · refine .inr ⟨stop, found ++ found', ?_, reaches.bind reaches'⟩
      rw [same, fails]
  · exact .inr ⟨stop, found, fails, reaches.bind_error⟩

theorem Follows.peek {next : Option UInt8 → Scanner Unit}
    (goes : Follows text (next (Utf8.encode cs).head?) least state last cs) :
    Follows text (peek text >>= next) least state last cs := by
  intro front parted
  rcases goes front parted with ⟨used, rest, found, shape, enough, same, reaches⟩ |
    ⟨stop, found, fails, reaches⟩
  · exact .inl ⟨used, rest, found, shape, enough, same, (reaches_peek_at parted).bind reaches⟩
  · exact .inr ⟨stop, found, fails, (reaches_peek_at parted).bind reaches⟩

theorem Follows.turning {body : Scanner Unit} (follows : Follows text body 1 state last cs) :
    Follows text (turning body) 1 state last cs := by
  intro front parted
  rcases follows front parted with ⟨used, rest, found, shape, enough, same, reaches⟩ |
    ⟨stop, found, fails, reaches⟩
  · exact .inl ⟨used, rest, found, shape, enough, same, reaches.turning (width_lt_of_used enough)⟩
  · exact .inr ⟨stop, found, fails, reaches.turning_error⟩

theorem Follows.calling {body : Scanner Unit} (follows : Follows text body 1 state last cs) :
    Follows text (calling body) 1 state last cs := by
  intro front parted
  rcases follows front parted with ⟨used, rest, found, shape, enough, same, reaches⟩ |
    ⟨stop, found, fails, reaches⟩
  · exact .inl ⟨used, rest, found, shape, enough, same, reaches.calling (width_lt_of_used enough)⟩
  · exact .inr ⟨stop, found, fails, reaches.calling_error⟩

theorem follows_pure : Follows text (pure ()) 0 state state cs := by
  intro front _
  refine .inl ⟨[], cs, [], rfl, Nat.le_refl 0, rfl, ?_⟩
  rw [List.append_nil]
  exact reaches_pure ()

theorem follows_refuse (fails : answer state cs = ([], false)) :
    Follows text refuse least state last cs :=
  fun _ _ => .inr ⟨_, [], fails, reaches_refuse⟩

theorem follows_advance (ascii : c.toNat < 128) (moves : state.step c = .move last) :
    Follows text advance 1 state last (c :: cs) :=
  fun _ parted => .inl ⟨[c], cs, [], rfl, Nat.le_refl 1, answer_move moves cs,
    reaches_advance_at ascii parted⟩

theorem follows_expect (ascii : c.toNat < 128) (moves : state.step c = .move last)
    (fails : cs.head? ≠ some c → answer state cs = ([], false)) :
    Follows text (expect text c) 1 state last cs := by
  intro front parted
  by_cases first : cs.head? = some c
  · obtain ⟨rest, rfl⟩ := List.head?_eq_some_iff.mp first
    exact .inl ⟨[c], rest, [], rfl, Nat.le_refl 1, answer_move moves rest,
      reaches_expect ascii parted⟩
  · exact .inr ⟨_, [], fails first, reaches_expect_error ascii parted first⟩

theorem Follows.mono {scanner : Scanner Unit} (fewer : more ≤ least)
    (follows : Follows text scanner least state last cs) :
    Follows text scanner more state last cs := by
  intro front parted
  rcases follows front parted with ⟨used, rest, found, shape, enough, same, reaches⟩ | fails
  · exact .inl ⟨used, rest, found, shape, Nat.le_trans fewer enough, same, reaches⟩
  · exact .inr fails

/-- A scan that follows the machine from one state follows it from any other with the same
answer. -/
theorem Follows.congr {scanner : Scanner Unit} (same : answer state cs = answer middle cs)
    (follows : Follows text scanner least middle last cs) :
    Follows text scanner least state last cs := by
  intro front parted
  rw [same]
  exact follows front parted

/-- What comes next begins in one way or another, and must begin. -/
structure Awaits (begins : State → Char → Move) (state : State) (cs : List Char) : Prop where
  pending : cs = [] → state.accepts = false
  steps : ∀ c, cs.head? = some c → state.step c = begins state c

theorem Awaits.refuses {begins : State → Char → Move} (awaits : Awaits begins state cs)
    (refuses : ∀ c, cs.head? = some c → begins state c = .refuse) :
    answer state cs = ([], false) := by
  cases cs with
  | nil => rw [answer_nil, awaits.pending rfl]
  | cons c cs => exact answer_refuse ((awaits.steps c rfl).trans (refuses c rfl)) cs

/-! ### Values -/

/-- A scan that cannot fail has read some characters and has a value, while the machine comes
from one state to another and names nothing. -/
structure Yields {α : Type} (text : String) (scanner : Scanner α) (value : α) (used : List Char)
    (state next : State) (rest : List Char) : Prop where
  same : answer state (used ++ rest) = answer next rest
  reaches : ∀ front, text.toList = front ++ (used ++ rest) →
    Reaches text scanner (width front) (.ok value) (width (front ++ used)) []

section Values

variable {α : Type} {value : α} {used rest : List Char}

theorem Yields.bind {scanner : Scanner α} {next : α → Scanner Unit}
    (yields : Yields text scanner value used state middle rest)
    (goes : Follows text (next value) least middle last rest)
    (enough : more ≤ used.length + least) :
    Follows text (scanner >>= next) more state last (used ++ rest) := by
  intro front parted
  have first := yields.reaches front parted
  rw [← List.append_assoc] at parted
  rcases goes _ parted with ⟨used', rest', found, rfl, many, same, reaches⟩ |
    ⟨stop, found, fails, reaches⟩
  · refine .inl ⟨used ++ used', rest', found, by simp, ?_, ?_, ?_⟩
    · rw [List.length_append]
      omega
    · rw [yields.same, same]
    · rw [← List.append_assoc]
      exact first.bind reaches
  · refine .inr ⟨stop, found, ?_, first.bind reaches⟩
    rw [yields.same, fails]

/-- One scan that cannot fail after another. -/
theorem Yields.next {β : Type} {scanner : Scanner α} {next : α → Scanner β} {value' : β}
    {used' : List Char} (yields : Yields text scanner value used state middle (used' ++ rest))
    (goes : Yields text (next value) value' used' middle last rest) :
    Yields text (scanner >>= next) value' (used ++ used') state last rest where
  same := by rw [List.append_assoc, yields.same, goes.same]
  reaches front parted := by
    rw [List.append_assoc] at parted
    have first := yields.reaches front parted
    rw [← List.append_assoc] at parted ⊢
    exact first.bind (goes.reaches _ parted)

theorem Yields.turning {scanner : Scanner α} (filled : used ≠ [])
    (yields : Yields text scanner value used state last rest) :
    Yields text (turning scanner) value used state last rest where
  same := yields.same
  reaches front parted := (yields.reaches front parted).turning
    (width_lt_of_used (List.length_pos_iff.mpr filled))

theorem yields_advance (ascii : c.toNat < 128) (moves : state.step c = .move last) :
    Yields text advance () [c] state last rest where
  same := answer_move moves rest
  reaches _ parted := reaches_advance_at ascii parted

end Values

/-! ### Stretches -/

/-- Where the machine only collects, it goes on up to what it does not collect. -/
theorem answer_takeWhile {keeps : Char → Bool} (states : List Char → State)
    (collects : ∀ reversed c, keeps c = true → (states reversed).step c =
      .move (states (c :: reversed))) :
    ∀ (cs reversed : List Char), answer (states reversed) cs =
      answer (states ((cs.takeWhile keeps).reverse ++ reversed)) (cs.dropWhile keeps) := by
  intro cs
  induction cs with
  | nil => exact fun _ => rfl
  | cons c cs goes =>
      intro reversed
      by_cases kept : keeps c = true
      · rw [List.takeWhile_cons_of_pos kept, List.dropWhile_cons_of_pos kept,
          answer_move (collects reversed c kept), goes, List.reverse_cons, List.append_assoc,
          List.singleton_append]
      · rw [List.takeWhile_cons_of_neg kept, List.dropWhile_cons_of_neg kept]
        rfl

/-- The name of a class is read at once, and collected character by character. -/
theorem yields_identifier {budget : Nat} (large : width cs < budget) (reversed : List Char) :
    Yields text (identifier text budget) (String.ofList (cs.takeWhile continues))
      (cs.takeWhile continues) { state with reading := .className reversed }
      { state with reading := .className ((cs.takeWhile continues).reverse ++ reversed) }
      (cs.dropWhile continues) where
  same := by
    rw [List.takeWhile_append_dropWhile]
    refine answer_takeWhile (fun reversed => { state with reading := .className reversed })
      (fun reversed c kept => ?_) cs reversed
    simp only [continues, decide_eq_true_eq] at kept
    simp [State.step, kept, State.read]
  reaches front parted := by
    rw [List.takeWhile_append_dropWhile] at parted
    exact reaches_identifier parted large

/-- A stretch is passed over up to its end. -/
theorem yields_skip {passes : UInt8 → Bool} {keeps : Char → Bool} {budget : Nat}
    (reads : Reads passes keeps) (large : width cs < budget)
    (same : answer state cs = answer last (cs.dropWhile keeps)) :
    Yields text (skip text passes budget) () (cs.takeWhile keeps) state last
      (cs.dropWhile keeps) where
  same := by rw [List.takeWhile_append_dropWhile, same]
  reaches front parted := by
    rw [List.takeWhile_append_dropWhile] at parted
    exact reaches_skip reads parted large

/-- Up to a character there is either that character or the end. -/
theorem dropWhile_ne (d : Char) (cs : List Char) :
    cs.dropWhile (fun c => decide (c ≠ d)) = [] ∨
      ∃ rest, cs.dropWhile (fun c => decide (c ≠ d)) = d :: rest := by
  have stops := List.head?_dropWhile_not (fun c => decide (c ≠ d)) cs
  cases shape : cs.dropWhile (fun c => decide (c ≠ d)) with
  | nil => exact .inl rfl
  | cons c rest =>
      rw [shape] at stops
      obtain rfl : c = d := by simpa using stops
      exact .inr ⟨rest, rfl⟩

end Following

end DependencyAudit.TypeText.Descent
