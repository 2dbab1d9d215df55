/-
# DependencyAudit.Proofs.SignatureDescents -- scanning signatures by descent

The machine of signatures keeps a stack of the class types it is inside of, and one step of it is
one character.  Functions that call one another have no such stack: a class type is inside of
another one while the call that scans it has not returned.  Each of them takes the machine from
the state in which it is called to the same state with the next item to read, whatever that state
is inside of (`Knows`).

This is shown for all functions at once, by strong induction on the octets that are left (`knows`).
It is stated for every state in which a function may be called, since a reference also begins
after a wildcard, a bracket or a colon.  Two functions share what the machine does in one state:
the call for the arguments of a class type ends where the one for the rest of its name goes on, so
the closing bracket belongs to what is known of the arguments.

A budget of four units for each octet is enough: at most four calls are made between two octets
(`reaches_signature`).
-/
import DependencyAudit.Proofs.Descents
import Mathlib.Tactic.Tauto

namespace DependencyAudit.TypeText.Descent

open DependencyAudit.Text
open Signature (State Move Reading)

set_option autoImplicit false

variable {text : String} {state last : State} {cs : List Char} {budget : Nat}

/-- What is known of the functions for types, at some characters and with enough budget. -/
structure Knows (text : String) (cs : List Char) : Prop where
  javaType : ∀ budget state, 4 * width cs + 3 ≤ budget → Awaits State.type state cs →
    Follows text (javaType text budget) 1 state { state with reading := .item } cs
  referenceType : ∀ budget state, 4 * width cs + 2 ≤ budget → Awaits State.reference state cs →
    Follows text (referenceType text budget) 1 state { state with reading := .item } cs
  classTail : ∀ budget state reversed, 4 * width cs + 1 ≤ budget →
    Awaits (fun state => state.afterName reversed) state cs →
      Follows text (do
        let name ← classTail text budget (String.ofList reversed.reverse)
        insert (ClassName.ofInternal name)) 1 state { state with reading := .item } cs
  arguments : ∀ budget outermost enclosing reversed, 4 * width cs + 3 ≤ budget →
    Follows text (do arguments text budget; expect text '>') 1
      ⟨outermost, reversed :: enclosing, .item⟩ ⟨outermost, enclosing, .classTail reversed⟩ cs

/-- All is known of fewer characters. -/
def KnowsLess (text : String) (cs : List Char) : Prop :=
  ∀ rest, width rest < width cs → Knows text rest

/-! ## Class types -/

theorem awaits_className (reversed cs : List Char) :
    Awaits (fun state => state.afterName reversed) { state with reading := .className reversed }
      (cs.dropWhile continues) where
  pending _ := by simp [State.accepts]
  steps c first := by
    have stops := List.head?_dropWhile_not continues cs
    rw [first] at stops
    have ends : c = '<' ∨ c = '.' ∨ c = ';' := by
      simp only [continues, decide_eq_false_iff_not] at stops
      tauto
    rcases ends with rfl | rfl | rfl <;> rfl

theorem awaits_classTail (reversed cs : List Char) :
    Awaits (fun state => state.afterName reversed) { state with reading := .classTail reversed }
      cs where
  pending _ := by simp [State.accepts]
  steps _ _ := rfl

theorem follows_classType (less : KnowsLess text cs) (large : 4 * width cs + 1 ≤ budget)
    (first : cs.head? = some 'L')
    (opens : state.step 'L' = .move { state with reading := .className [] }) :
    Follows text (classType text budget) 1 state { state with reading := .item } cs := by
  obtain ⟨budget, rfl, fits⟩ := exists_budget large
  rw [classType]
  refine Follows.calling ?_
  refine (follows_expect (by decide) opens (absurd first)).bind fun used rest shape enough => ?_
  have shorter := width_lt_of_parted shape enough
  have split := List.takeWhile_append_dropWhile (p := continues) (l := rest)
  have size := width_append (rest.takeWhile continues) (rest.dropWhile continues)
  rw [split] at size
  have name : ((rest.takeWhile continues).reverse ++ []).reverse = rest.takeWhile continues := by
    simp
  have tail := (less (rest.dropWhile continues) (by omega)).classTail budget _ _ (by omega)
    (@awaits_className state ((rest.takeWhile continues).reverse ++ []) rest)
  rw [name] at tail
  rw [← split]
  exact (yields_identifier (by omega) []).bind tail (Nat.zero_le _)

/-- The next name of a class, after a dot. -/
theorem yields_inner {rest reversed : List Char} (large : width rest < budget)
    (moves : state.step '.' = .move { state with reading := .className reversed }) :
    Yields text (turning do advance; identifier text budget)
      (String.ofList (rest.takeWhile continues)) ('.' :: rest.takeWhile continues) state
      { state with reading := .className ((rest.takeWhile continues).reverse ++ reversed) }
      (rest.dropWhile continues) := by
  refine Yields.turning (by simp) ?_
  exact (yields_advance (by decide) moves).next (yields_identifier large reversed)

theorem follows_typeArguments {outermost : Signature.Section} {enclosing : List (List Char)}
    {reversed : List Char} (less : KnowsLess text cs) (large : 4 * width cs ≤ budget)
    (first : cs.head? = some '<')
    (opens : state.step '<' = .move ⟨outermost, reversed :: enclosing, .item⟩) :
    Follows text (typeArguments text budget) 1 state
      ⟨outermost, enclosing, .classTail reversed⟩ cs := by
  have filled : 0 < width cs := width_pos (by rintro rfl; cases first)
  obtain ⟨budget, rfl, fits⟩ := exists_budget (Nat.le_trans (by omega) large : 4 ≤ budget)
  rw [typeArguments]
  refine Follows.calling ?_
  refine (follows_expect (by decide) opens (absurd first)).bind fun used rest shape enough => ?_
  have shorter := width_lt_of_parted shape enough
  exact ((less rest shorter).arguments budget _ _ _ (by omega)).mono (Nat.zero_le _)

theorem follows_classTail {reversed : List Char} (less : KnowsLess text cs)
    (large : 4 * width cs + 1 ≤ budget)
    (awaits : Awaits (fun state => state.afterName reversed) state cs) :
    Follows text (do
      let name ← classTail text budget (String.ofList reversed.reverse)
      insert (ClassName.ofInternal name)) 1 state { state with reading := .item } cs := by
  obtain ⟨budget, rfl, fits⟩ := exists_budget large
  rw [classTail, bind_assoc]
  refine Follows.peek ?_
  by_cases open_ : cs.head? = some '<'
  · rw [if_first (by decide) open_, bind_assoc]
    have opens := awaits.steps '<' open_
    refine (follows_typeArguments less fits open_ opens).turning.bind
      fun used rest shape enough => ?_
    have shorter := width_lt_of_parted shape enough
    exact ((less rest shorter).classTail budget _ reversed (by omega)
      (awaits_classTail reversed rest)).mono (Nat.zero_le _)
  rw [if_not_first (by decide) open_]
  by_cases dot : cs.head? = some '.'
  · rw [if_first (by decide) dot, bind_assoc]
    have moves := awaits.steps '.' dot
    obtain ⟨rest, rfl⟩ := List.head?_eq_some_iff.mp dot
    have split := List.takeWhile_append_dropWhile (p := continues) (l := rest)
    have size := width_append (rest.takeWhile continues) (rest.dropWhile continues)
    rw [split] at size
    have shape : '.' :: rest = ('.' :: rest.takeWhile continues) ++ rest.dropWhile continues := by
      rw [List.cons_append, split]
    have shorter : width rest < width ('.' :: rest) :=
      width_lt_of_parted (List.singleton_append).symm (Nat.le_refl 1)
    have name : String.ofList reversed.reverse ++ "$" ++ String.ofList (rest.takeWhile continues) =
        String.ofList ((rest.takeWhile continues).reverse ++ '$' :: reversed).reverse := by
      simp [← String.toList_inj]
    have tail := (less (rest.dropWhile continues) (by omega)).classTail budget _ _ (by omega)
      (@awaits_className state ((rest.takeWhile continues).reverse ++ '$' :: reversed) rest)
    rw [← name] at tail
    rw [shape]
    exact (yields_inner (by omega) moves).bind tail (Nat.le_add_left 1 _)
  rw [if_not_first (by decide) dot, bind_assoc]
  intro front parted
  by_cases semicolon : cs.head? = some ';'
  · -- The class is complete.
    have names := awaits.steps ';' semicolon
    have name : ClassName.ofInternal (String.ofList reversed.reverse) =
        String.ofList (ClassName.dotted reversed.reverse) := by
      rw [ClassName.ofInternal, String.toList_ofList]
    obtain ⟨rest, rfl⟩ := List.head?_eq_some_iff.mp semicolon
    have closed := (reaches_expect (by decide) parted).turning (width_lt_of_used (Nat.le_refl 1))
    refine .inl ⟨[';'], rest, [String.ofList (ClassName.dotted reversed.reverse)], rfl,
      Nat.le_refl 1, answer_names names rest, ?_⟩
    refine closed.bind ((reaches_pure _).bind ?_)
    rw [name]
    exact reaches_insert _
  · refine .inr ⟨_, [], awaits.refuses fun c first => ?_,
      (reaches_expect_error (by decide) parted semicolon).turning_error.bind_error⟩
    rw [first] at open_ dot semicolon
    simp only [Option.some.injEq] at open_ dot semicolon
    rw [State.afterName, if_neg open_, if_neg dot, if_neg semicolon]

/-! ## Types -/

/-- Letters that stand for a type are letters of ASCII. -/
theorem reads_base : Reads (fun next => decide (next ∈ baseOctets)) State.isBase := by
  intro c next member
  simp (disch := decide) only [baseOctets, State.isBase, List.map_cons, List.map_nil,
    List.mem_cons, List.not_mem_nil, or_false, mem_octets_iff _ member, Bool.decide_or,
    Bool.or_assoc]

theorem ascii_of_isBase {c : Char} (base : State.isBase c = true) : c.toNat < 128 := by
  simp only [State.isBase, Bool.or_eq_true, decide_eq_true_eq] at base
  rcases base with (((((((rfl | rfl) | rfl) | rfl) | rfl) | rfl) | rfl) | rfl) | rfl <;> decide

/-- What awaits a type that is no letter awaits a reference. -/
theorem Awaits.reference (awaits : Awaits State.type state cs)
    (other : cs.head?.any State.isBase = false) : Awaits State.reference state cs where
  pending := awaits.pending
  steps c first := by
    rw [first, Option.any_some] at other
    rw [awaits.steps c first, State.type, other, if_neg Bool.false_ne_true]

theorem follows_javaType
    (references : ∀ budget state, 4 * width cs + 2 ≤ budget → Awaits State.reference state cs →
      Follows text (referenceType text budget) 1 state { state with reading := .item } cs)
    (large : 4 * width cs + 3 ≤ budget) (awaits : Awaits State.type state cs) :
    Follows text (javaType text budget) 1 state { state with reading := .item } cs := by
  obtain ⟨budget, rfl, fits⟩ := exists_budget large
  rw [javaType]
  refine Follows.calling (Follows.peek ?_)
  rw [head?_of_reads reads_base]
  cases base : cs.head?.any State.isBase with
  | false =>
      rw [if_neg Bool.false_ne_true]
      exact references budget state fits (awaits.reference base)
  | true =>
      obtain ⟨c, rest, rfl⟩ : ∃ c rest, cs = c :: rest := by
        refine List.exists_cons_of_ne_nil ?_
        rintro rfl
        cases base
      rw [List.head?_cons, Option.any_some] at base
      rw [if_pos rfl]
      refine follows_advance (ascii_of_isBase base) ?_
      rw [awaits.steps c rfl, State.type, if_pos base, State.read]

/-- The name of a type variable is passed over up to the semicolon. -/
theorem follows_variable {rest : List Char} (large : width ('T' :: rest) < budget)
    (opens : state.step 'T' = .move { state with reading := .variableName }) :
    Follows text (do
      skip text (fun next => next ≠ octet ';') budget
      expect text ';') 1 state { state with reading := .item } ('T' :: rest) := by
  have passed : answer state ('T' :: rest) =
      answer { state with reading := .variableName }
        (('T' :: rest).dropWhile fun c => decide (c ≠ ';')) := by
    rw [answer_move opens, List.dropWhile_cons_of_pos (by decide)]
    refine answer_takeWhile (fun _ => { state with reading := .variableName }) ?_ rest []
    intro _ c kept
    simp [State.step, of_decide_eq_true kept, State.read]
  have closes : Follows text (expect text ';') 1 { state with reading := .variableName }
      { state with reading := .item } (('T' :: rest).dropWhile fun c => decide (c ≠ ';')) := by
    refine follows_expect (by decide) rfl fun other => ?_
    rcases dropWhile_ne ';' ('T' :: rest) with ended | ⟨more, stopped⟩
    · rw [ended, answer_nil]
      simp [State.accepts]
    · rw [stopped] at other
      exact absurd rfl other
  have split := List.takeWhile_append_dropWhile (p := fun c => decide (c ≠ ';')) (l := 'T' :: rest)
  have skipped := @yields_skip text _ _ _ _ _ _ (reads_ne (d := ';') (by decide)) large passed
  rw [← split]
  exact skipped.bind closes (Nat.le_add_left 1 _)

theorem reference_refuses {c : Char} (class_ : c ≠ 'L') (variable_ : c ≠ 'T') (array : c ≠ '[') :
    state.reference c = .refuse := by
  rw [State.reference, if_neg class_, if_neg variable_, if_neg array]

theorem follows_referenceType (less : KnowsLess text cs) (large : 4 * width cs + 2 ≤ budget)
    (awaits : Awaits State.reference state cs) :
    Follows text (referenceType text budget) 1 state { state with reading := .item } cs := by
  obtain ⟨budget, rfl, fits⟩ := exists_budget large
  rw [referenceType]
  refine Follows.calling (Follows.peek ?_)
  by_cases class_ : cs.head? = some 'L'
  · rw [if_first (by decide) class_]
    exact follows_classType less fits class_ (awaits.steps 'L' class_)
  rw [if_not_first (by decide) class_]
  by_cases variable_ : cs.head? = some 'T'
  · rw [if_first (by decide) variable_]
    have opens := awaits.steps 'T' variable_
    obtain ⟨rest, rfl⟩ := List.head?_eq_some_iff.mp variable_
    exact follows_variable (by omega) opens
  rw [if_not_first (by decide) variable_]
  by_cases array : cs.head? = some '['
  · rw [if_first (by decide) array]
    have opens := awaits.steps '[' array
    obtain ⟨rest, rfl⟩ := List.head?_eq_some_iff.mp array
    refine (follows_advance (by decide) opens).bind fun used rest' shape enough => ?_
    have shorter := width_lt_of_parted shape enough
    exact ((less rest' shorter).javaType budget _ (by omega) ⟨fun _ => by simp [State.accepts],
      fun _ _ => rfl⟩).mono (Nat.zero_le _)
  rw [if_not_first (by decide) array]
  refine follows_refuse (awaits.refuses fun c first => ?_)
  rw [first, Option.some.injEq] at class_ variable_ array
  exact reference_refuses class_ variable_ array

/-- One type argument. -/
theorem follows_argument {outermost : Signature.Section} {enclosing : List (List Char)}
    {reversed : List Char} (less : KnowsLess text cs)
    (references : ∀ budget state, 4 * width cs + 2 ≤ budget → Awaits State.reference state cs →
      Follows text (referenceType text budget) 1 state { state with reading := .item } cs)
    (large : 4 * width cs + 2 ≤ budget) (inside : cs.head? ≠ some '>') :
    Follows text (
      if (Utf8.encode cs).head? = some (octet '*') then advance
      else if (Utf8.encode cs).head? = some (octet '+') ∨
          (Utf8.encode cs).head? = some (octet '-') then do
        advance
        referenceType text budget
      else if (Utf8.encode cs).head?.isSome then referenceType text budget
      else refuse) 1 ⟨outermost, reversed :: enclosing, .item⟩
      ⟨outermost, reversed :: enclosing, .item⟩ cs := by
  simp (disch := decide) only [head?_encode]
  cases cs with
  | nil => exact follows_refuse (by simp [answer_nil, State.accepts])
  | cons c rest =>
      rw [List.head?_cons, ne_eq, Option.some.injEq] at inside
      simp only [List.head?_cons, Option.some.injEq]
      split
      · rename_i any
        exact follows_advance (any ▸ by decide) (by rw [any]; rfl)
      split
      · rename_i any wildcard
        have opens : State.step ⟨outermost, reversed :: enclosing, .item⟩ c =
            .move ⟨outermost, reversed :: enclosing, .wildcard⟩ := by
          rcases wildcard with rfl | rfl <;> rfl
        have ascii : c.toNat < 128 := by rcases wildcard with rfl | rfl <;> decide
        refine (follows_advance ascii opens).bind fun used rest' shape enough => ?_
        have shorter := width_lt_of_parted shape enough
        exact ((less rest' shorter).referenceType budget _ (by omega)
          ⟨fun _ => by simp [State.accepts], fun _ _ => rfl⟩).mono (Nat.zero_le _)
      · rename_i any wildcard
        obtain ⟨next, _, first⟩ := exists_head c rest
        rw [first, Option.isSome_some, if_pos rfl]
        refine references budget _ large ⟨nofun, fun d same => ?_⟩
        obtain rfl : c = d := by simpa using same
        simp [State.step, State.item, inside, any, wildcard]

/-- The arguments of a class type, up to the closing bracket. -/
theorem follows_arguments {outermost : Signature.Section} {enclosing : List (List Char)}
    {reversed : List Char} (less : KnowsLess text cs)
    (references : ∀ budget state, 4 * width cs + 2 ≤ budget → Awaits State.reference state cs →
      Follows text (referenceType text budget) 1 state { state with reading := .item } cs)
    (large : 4 * width cs + 3 ≤ budget) :
    Follows text (do arguments text budget; expect text '>') 1
      ⟨outermost, reversed :: enclosing, .item⟩ ⟨outermost, enclosing, .classTail reversed⟩ cs := by
  obtain ⟨budget, rfl, fits⟩ := exists_budget large
  rw [arguments, bind_assoc]
  refine Follows.peek ?_
  by_cases closing : cs.head? = some '>'
  · rw [if_first (by decide) closing, pure_bind]
    exact follows_expect (by decide) rfl (absurd closing)
  rw [if_not_first (by decide) closing, bind_assoc]
  refine (follows_argument less references fits closing).turning.bind
    fun used rest shape enough => ?_
  have shorter := width_lt_of_parted shape enough
  exact ((less rest shorter).arguments budget _ _ _ (by omega)).mono (Nat.zero_le _)

/-- **The functions for types do the work of the machine.** -/
theorem knows (text : String) (cs : List Char) : Knows text cs := by
  induction size : width cs using Nat.strong_induction_on generalizing cs with
  | _ size shorter =>
      have less : KnowsLess text cs := fun rest fewer => shorter _ (size ▸ fewer) rest rfl
      -- `javaType` and `arguments` call `referenceType` before they have moved on.
      have references : ∀ budget state, 4 * width cs + 2 ≤ budget →
          Awaits State.reference state cs →
            Follows text (referenceType text budget) 1 state { state with reading := .item } cs :=
        fun budget state large awaits => follows_referenceType less large awaits
      exact {
        javaType := fun budget state large awaits => follows_javaType references large awaits
        referenceType := references
        classTail := fun budget state reversed large awaits => follows_classTail less large awaits
        arguments := fun budget _ _ _ large => follows_arguments less references large }

/-! ## Type parameters -/

/-- The machine between two type parameters. -/
def betweenParameters : State := ⟨.parameters, [], .item⟩

/-- After a colon without a bound the machine goes on as between two parameters. -/
theorem answer_bound (unbounded : cs.head? ≠ some 'L' ∧ cs.head? ≠ some 'T' ∧ cs.head? ≠ some '[') :
    answer ⟨.parameters, [], .bound⟩ cs = answer betweenParameters cs := by
  cases cs with
  | nil => rfl
  | cons c rest =>
      simp only [List.head?_cons, ne_eq, Option.some.injEq] at unbounded
      have same : State.step ⟨.parameters, [], .bound⟩ c = State.step betweenParameters c := by
        have other : (decide (c = 'L') || decide (c = 'T') || decide (c = '[')) = false := by
          simp [unbounded]
        simp only [State.step, other, Bool.false_eq_true, if_false]
        rfl
      simp only [answer, Signature.run, same]

/-- A colon with what is bound there. -/
theorem follows_bound {rest : List Char} (large : 4 * width (':' :: rest) ≤ budget + 1) :
    Follows text (do
      advance
      let next ← peek text
      if next = some (octet 'L') ∨ next = some (octet 'T') ∨ next = some (octet '[') then
        referenceType text budget
      else return ()) 1 betweenParameters betweenParameters (':' :: rest) := by
  have moves : State.step betweenParameters ':' = .move ⟨.parameters, [], .bound⟩ := rfl
  refine (follows_advance (by decide) moves).bind fun used rest' shape enough => Follows.peek ?_
  have shorter := width_lt_of_parted shape enough
  simp (disch := decide) only [head?_encode]
  split
  · rename_i bounded
    refine ((knows text rest').referenceType budget _ (by omega) ⟨?_, fun c first => ?_⟩).mono
      (Nat.zero_le _)
    · rintro rfl
      simp at bounded
    · simp only [first, Option.some.injEq] at bounded
      rcases bounded with rfl | rfl | rfl <;> rfl
  · rename_i unbounded
    exact follows_pure.congr (answer_bound (by tauto))

theorem follows_bounds :
    ∀ {budget : Nat} {cs : List Char}, 4 * width cs < budget →
      Follows text (bounds text budget) 0 betweenParameters betweenParameters cs := by
  intro budget
  induction budget with
  | zero => exact fun large => absurd large (Nat.not_lt_zero _)
  | succ budget later =>
      intro cs large
      rw [bounds]
      refine Follows.peek ?_
      by_cases colon : cs.head? = some ':'
      · rw [if_first (by decide) colon]
        obtain ⟨rest, rfl⟩ := List.head?_eq_some_iff.mp colon
        refine ((follows_bound (Nat.le_of_lt large)).turning.bind
          fun used rest' shape enough => ?_).mono (Nat.zero_le _)
        have shorter := width_lt_of_parted shape enough
        exact later (by omega)
      · rw [if_not_first (by decide) colon]
        exact follows_pure

/-- The name of a type parameter is passed over up to its first colon. -/
theorem answer_parameter (inside : cs.head? ≠ some '>') :
    answer betweenParameters cs =
      answer betweenParameters (cs.dropWhile fun c => decide (c ≠ ':')) := by
  cases cs with
  | nil => rfl
  | cons c rest =>
      by_cases colon : c = ':'
      · rw [List.dropWhile_cons_of_neg (by simpa using colon)]
      have closing : c ≠ '>' := by simpa using inside
      have moves : State.step betweenParameters c = .move ⟨.parameters, [], .parameterName⟩ := by
        simp [betweenParameters, State.step, State.item, State.parameter, closing, colon,
          State.read]
      rw [answer_move moves, List.dropWhile_cons_of_pos (by simpa using colon)]
      have passed := answer_takeWhile (fun _ => ⟨.parameters, [], .parameterName⟩)
        (fun _ d (kept : decide (d ≠ ':') = true) => by
          simp [State.step, of_decide_eq_true kept, State.read]) rest []
      rw [passed]
      rcases dropWhile_ne ':' rest with ended | ⟨more, stopped⟩
      · rw [ended]
        rfl
      · rw [stopped]
        rfl

/-- A type parameter with its bounds. -/
theorem follows_parameter (large : 4 * width cs < budget) (inside : cs.head? ≠ some '>') :
    Follows text (do
      skip text (fun next => next ≠ octet ':') budget
      if (← peek text).isNone then refuse else bounds text budget) 1
      betweenParameters betweenParameters cs := by
  have split := List.takeWhile_append_dropWhile (p := fun c => decide (c ≠ ':')) (l := cs)
  have size := width_append (cs.takeWhile fun c => decide (c ≠ ':'))
    (cs.dropWhile fun c => decide (c ≠ ':'))
  rw [split] at size
  have short : width cs < budget := by omega
  have skipped := @yields_skip text _ _ _ _ _ _ (reads_ne (d := ':') (by decide)) short
    (answer_parameter inside)
  have bound : Follows text (do
      if (← peek text).isNone then refuse else bounds text budget) 1
      betweenParameters betweenParameters (cs.dropWhile fun c => decide (c ≠ ':')) := by
    refine Follows.peek ?_
    rw [head?_encode_isNone]
    rcases dropWhile_ne ':' cs with ended | ⟨more, stopped⟩
    · rw [ended, List.isEmpty_nil, if_pos rfl]
      exact follows_refuse rfl
    · rw [stopped] at size ⊢
      rw [List.isEmpty_cons, if_neg Bool.false_ne_true]
      obtain ⟨budget, rfl, fits⟩ := exists_budget large
      rw [bounds]
      refine Follows.peek ?_
      rw [if_first (by decide) List.head?_cons]
      refine (follows_bound (by omega)).turning.bind fun used rest shape enough => ?_
      have shorter := width_lt_of_parted shape enough
      exact follows_bounds (by omega)
  rw [← split]
  exact skipped.bind bound (Nat.le_add_left 1 _)

/-- Type parameters, up to the closing bracket. -/
theorem follows_parameters :
    ∀ {budget : Nat} {cs : List Char}, 4 * width cs + 1 < budget →
      Follows text (do parameters text budget; expect text '>') 1 betweenParameters .start cs := by
  intro budget
  induction budget with
  | zero => exact fun large => absurd large (Nat.not_lt_zero _)
  | succ budget later =>
      intro cs large
      rw [parameters, bind_assoc]
      refine Follows.peek ?_
      by_cases closing : cs.head? = some '>'
      · rw [if_first (by decide) closing, pure_bind]
        exact follows_expect (by decide) rfl (absurd closing)
      rw [if_not_first (by decide) closing, bind_assoc]
      refine (follows_parameter (by omega) closing).turning.bind fun used rest shape enough => ?_
      have shorter := width_lt_of_parted shape enough
      exact (later (by omega)).mono (Nat.zero_le _)

/-! ## Signatures -/

/-- A scan of all characters that are left comes to what the machine comes to. -/
def Finishes (text : String) (scanner : Scanner Unit) (state : State) (cs : List Char) : Prop :=
  ∀ front, text.toList = front ++ cs → ∃ stop,
    Reaches text scanner (width front)
      (if (answer state cs).2 then .ok () else .error .malformed) stop (answer state cs).1

theorem Follows.finish {scanner : Scanner Unit} {next : Unit → Scanner Unit} {least : Nat}
    (follows : Follows text scanner least state last cs)
    (rests : ∀ used rest, cs = used ++ rest → least ≤ used.length →
      Finishes text (next ()) last rest) : Finishes text (scanner >>= next) state cs := by
  intro front parted
  rcases follows front parted with ⟨used, rest, found, rfl, enough, same, reaches⟩ |
    ⟨stop, found, fails, reaches⟩
  · rw [← List.append_assoc] at parted
    obtain ⟨stop, reaches'⟩ := rests used rest rfl enough _ parted
    rw [same]
    exact ⟨stop, reaches.bind reaches'⟩
  · rw [fails]
    exact ⟨stop, reaches.bind_error⟩

/-- A type, or a mark between types. -/
theorem follows_item (large : 4 * width cs + 3 ≤ budget) (filled : cs ≠ []) :
    Follows text (
      if (Utf8.encode cs).head? = some (octet '(') ∨ (Utf8.encode cs).head? = some (octet ')') ∨
          (Utf8.encode cs).head? = some (octet '^') then advance
      else javaType text budget) 1 .start .start cs := by
  simp (disch := decide) only [head?_encode]
  obtain ⟨c, rest, rfl⟩ := List.exists_cons_of_ne_nil filled
  simp only [List.head?_cons, Option.some.injEq]
  split
  · rename_i mark
    have ascii : c.toNat < 128 := by rcases mark with rfl | rfl | rfl <;> decide
    exact follows_advance ascii (by rcases mark with rfl | rfl | rfl <;> rfl)
  · rename_i other
    refine (knows text _).javaType budget _ large ⟨nofun, fun d same => ?_⟩
    obtain rfl : c = d := by simpa using same
    simp only [not_or] at other
    simp [State.start, State.step, State.item, other]

theorem finishes_types :
    ∀ {budget : Nat} {cs : List Char}, 4 * width cs + 3 < budget →
      Finishes text (types text budget) .start cs := by
  intro budget
  induction budget with
  | zero => exact fun large => absurd large (Nat.not_lt_zero _)
  | succ budget later =>
      intro cs large front parted
      have whole := reaches_peek_at parted
      rw [types]
      by_cases ended : cs = []
      · subst ended
        refine ⟨width front, whole.bind ?_⟩
        exact reaches_pure ()
      · have goes : Finishes text (do
            turning do
              if (Utf8.encode cs).head? = some (octet '(') ∨
                  (Utf8.encode cs).head? = some (octet ')') ∨
                  (Utf8.encode cs).head? = some (octet '^') then advance
              else javaType text budget
            types text budget) .start cs := by
          refine (follows_item (by omega) ended).turning.finish fun used rest shape enough => ?_
          have shorter := width_lt_of_parted shape enough
          exact later (by omega)
        obtain ⟨stop, reaches⟩ := goes front parted
        refine ⟨stop, whole.bind ?_⟩
        rw [head?_encode_isNone, if_neg (by simpa using ended)]
        exact reaches

/-- Type parameters at the front of a text, and the types after them. -/
theorem finishes_parameters {rest : List Char} (parted : text.toList = '<' :: rest)
    (large : 4 * width rest + 3 < budget) : ∃ stop,
    Reaches text (do typeParameters text budget; types text budget) 0
      (if (answer betweenParameters rest).2 then .ok () else .error .malformed) stop
      (answer betweenParameters rest).1 := by
  have opened : Reaches text (expect text '<') 0 (.ok ()) (width ['<']) [] :=
    @reaches_expect text [] rest '<' (by decide) parted
  have behind : text.toList = ['<'] ++ rest := parted
  rcases @follows_parameters text budget rest (by omega) _ behind with
    ⟨used, later, found, rfl, enough, same, reaches⟩ | ⟨stop, found, fails, reaches⟩
  · rw [← List.append_assoc] at behind
    have moves : 0 < width (['<'] ++ used) := width_pos (by simp)
    have called : Reaches text (typeParameters text budget) 0 (.ok ()) (width (['<'] ++ used))
        found := by
      rw [typeParameters]
      exact Reaches.calling (opened.bind reaches) moves
    rw [width_append] at large
    obtain ⟨stop, finishes⟩ := @finishes_types text budget later (by omega) _ behind
    refine ⟨stop, ?_⟩
    rw [same]
    exact called.bind finishes
  · have called : Reaches text (typeParameters text budget) 0 (.error .malformed) stop found := by
      rw [typeParameters]
      exact Reaches.calling_error (opened.bind reaches)
    refine ⟨stop, ?_⟩
    rw [fails]
    exact called.bind_error

/-- A text that is no signature is refused. -/
def verdict (text : String) : Except Fault Unit :=
  if Signature.isWellFormed text then .ok () else .error .malformed

/-- **A scan of a signature finds what the machine names**, and fails exactly where the machine
does not accept. -/
theorem reaches_signature (text : String) {budget : Nat}
    (large : 4 * (Utf8.encodeString text).length + 3 < budget) : ∃ stop,
    Reaches text (signature text budget) 0 (verdict text) stop (Signature.classTypes text) := by
  have peeked : Reaches text (peek text) 0 (.ok (Utf8.encode text.toList).head?) 0 [] :=
    @reaches_peek_at text [] text.toList rfl
  by_cases open_ : text.toList.head? = some '<'
  · obtain ⟨rest, parted⟩ := List.head?_eq_some_iff.mp open_
    have size : (Utf8.encodeString text).length = width ['<'] + width rest := by
      rw [← width_append, List.singleton_append, ← parted]
      rfl
    obtain ⟨stop, reaches⟩ := finishes_parameters parted (by omega : 4 * width rest + 3 < budget)
    have machine : Signature.scan text.toList = Signature.run betweenParameters rest := by
      rw [parted]
      rfl
    rw [verdict, Signature.isWellFormed, Signature.classTypes, machine]
    refine ⟨stop, peeked.bind ?_⟩
    rw [if_first (by decide) open_]
    exact reaches
  · obtain ⟨stop, reaches⟩ := @finishes_types text budget text.toList large [] rfl
    rw [verdict, Signature.isWellFormed, Signature.classTypes, Signature.scan_of_head? open_]
    refine ⟨stop, peeked.bind ?_⟩
    rw [if_not_first (by decide) open_]
    exact reaches

end DependencyAudit.TypeText.Descent
