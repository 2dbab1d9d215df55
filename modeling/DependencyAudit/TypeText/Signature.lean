/-
# DependencyAudit.TypeText.Signature -- the classes of a generic signature

A class, method or field signature is a list of type parameters, if any,
followed by types:

    signature  = [ "<" parameter* ">" ] ( "(" | ")" | "^" | type )*
    parameter  = name ( ":" [ reference ] )+
    type       = one of B C D F I J S Z V | reference
    reference  = "L" class ";" | "T" name ";" | "[" type
    class      = name ( arguments | "." name )*
    arguments  = "<" ( "*" | ( "+" | "-" ) reference | reference )* ">"

Class types nest through their arguments, so the scanner is a pushdown machine:
it reads one character at a time and keeps the class types whose arguments it
is inside of.  A class type counts when its semicolon is read, as its name with
inner names joined by `$`.  A character with no place in the grammar stops the
scan; what was named before it stays named.  The run on a text is the run on
its beginning, resumed (`run_append`), so a cut signature names nothing that
the whole one does not (`scan_named_subset_append`).
-/
import DependencyAudit.ClassName
import DependencyAudit.NameSet

namespace DependencyAudit.TypeText.Signature

set_option autoImplicit false

/-! ## The machine -/

/-- The list that the outermost type belongs to. -/
inductive Section where
  /-- Between `<` and `>` at the front. -/
  | parameters
  /-- The types after them. -/
  | types
deriving Repr, DecidableEq

/-- What the scanner is reading. -/
inductive Reading where
  /-- Nothing yet: the next item of the innermost list. -/
  | item
  /-- The name of a type parameter. -/
  | parameterName
  /-- A bound, just after its colon. -/
  | bound
  /-- The type under a wildcard. -/
  | wildcard
  /-- The element type of an array. -/
  | element
  /-- The name of a type variable. -/
  | variableName
  /-- The name of a class type, latest character first. -/
  | className (reversed : List Char)
  /-- What follows the arguments of a class type. -/
  | classTail (reversed : List Char)
deriving Repr, DecidableEq

/-- The scanner's memory: the outermost list, the class types it is inside the
arguments of, innermost first, and what it is reading. -/
structure State where
  outermost : Section
  enclosing : List (List Char)
  reading : Reading
deriving Repr, DecidableEq

/-- What one character leads to. -/
inductive Move where
  | move (state : State)
  /-- A class type is complete. -/
  | names (className : String) (state : State)
  /-- The character has no place here. -/
  | refuse
deriving Repr, DecidableEq

namespace State

def read (state : State) (reading : Reading) : Move :=
  .move { state with reading := reading }

/-- A type of one letter. -/
def isBase (c : Char) : Bool :=
  c = 'B' || c = 'C' || c = 'D' || c = 'F' || c = 'I' || c = 'J' || c = 'S' || c = 'Z' || c = 'V'

/-- A reference type begins. -/
def reference (state : State) (c : Char) : Move :=
  if c = 'L' then state.read (.className [])
  else if c = 'T' then state.read .variableName
  else if c = '[' then state.read .element
  else .refuse

/-- A type begins. -/
def type (state : State) (c : Char) : Move :=
  if isBase c then state.read .item else state.reference c

/-- After the name of a class type: its arguments, an inner name, or its end. -/
def afterName (state : State) (reversed : List Char) (c : Char) : Move :=
  if c = '<' then .move ⟨state.outermost, reversed :: state.enclosing, .item⟩
  else if c = '.' then state.read (.className ('$' :: reversed))
  else if c = ';' then
    .names (String.ofList (ClassName.dotted reversed.reverse)) { state with reading := .item }
  else .refuse

/-- A type parameter begins, continues with another bound, or the list ends. -/
def parameter (state : State) (c : Char) : Move :=
  if c = '>' then .move ⟨.types, [], .item⟩
  else if c = ':' then state.read .bound
  else state.read .parameterName

/-- The next item of the innermost list. -/
def item (state : State) (c : Char) : Move :=
  match state.enclosing, state.outermost with
  | reversed :: outer, outermost =>
      if c = '>' then .move ⟨outermost, outer, .classTail reversed⟩
      else if c = '*' then state.read .item
      else if c = '+' || c = '-' then state.read .wildcard
      else state.reference c
  | [], .parameters => state.parameter c
  | [], .types =>
      if c = '(' || c = ')' || c = '^' then state.read .item else state.type c

/-- Reads one character. -/
def step (state : State) (c : Char) : Move :=
  match state.reading with
  | .item => state.item c
  | .parameterName => if c = ':' then state.read .bound else state.read .parameterName
  | .bound =>
      if c = 'L' || c = 'T' || c = '[' then state.reference c else state.parameter c
  | .wildcard => state.reference c
  | .element => state.type c
  | .variableName => if c = ';' then state.read .item else state.read .variableName
  | .className reversed =>
      if c = '<' || c = '.' || c = ';' then state.afterName reversed c
      else state.read (.className (c :: reversed))
  | .classTail reversed => state.afterName reversed c

/-- A signature may end here: no list or type is open. -/
def accepts (state : State) : Bool :=
  state.outermost == .types && state.enclosing.isEmpty && state.reading == .item

/-- Where every signature begins once its parameters are read. -/
def start : State := ⟨.types, [], .item⟩

end State

/-! ## Runs -/

/-- A scan: the state after the last character, unless one was refused, and the
classes named, in order. -/
structure Run where
  state : Option State
  named : List String
deriving Repr, DecidableEq

/-- Scans a text from a state. -/
def run : State → List Char → Run
  | state, [] => ⟨some state, []⟩
  | state, c :: rest =>
      match state.step c with
      | .move next => run next rest
      | .names className next =>
          let tail := run next rest
          ⟨tail.state, className :: tail.named⟩
      | .refuse => ⟨none, []⟩

/-- Scans a whole signature. -/
def scan : List Char → Run
  | '<' :: rest => run ⟨.parameters, [], .item⟩ rest
  | cs => run .start cs

/-- The classes a signature names, in order; those before the fault if it is
malformed. -/
def classTypes (signature : String) : List String :=
  (scan signature.toList).named

/-- Whether the whole text is a signature. -/
def isWellFormed (signature : String) : Bool :=
  ((scan signature.toList).state.map State.accepts).getD false

/-- Adds the classes of a signature to a set. -/
def collect (signature : String) (names : NameSet) : NameSet :=
  names.insertAll (classTypes signature)

/-! ## Facts -/

theorem run_append (state : State) (cs ds : List Char) :
    run state (cs ++ ds) =
      match (run state cs).state with
      | none => run state cs
      | some next => ⟨(run next ds).state, (run state cs).named ++ (run next ds).named⟩ := by
  induction cs generalizing state with
  | nil => simp [run]
  | cons c rest resume =>
      simp only [List.cons_append, run]
      cases state.step c with
      | move next => simpa using resume next
      | names className next =>
          simp only [resume next]
          cases ended : (run next rest).state <;> simp [ended]
      | refuse => rfl

theorem run_named_subset_append {state : State} {cs ds : List Char} {name : String}
    (named : name ∈ (run state cs).named) : name ∈ (run state (cs ++ ds)).named := by
  rw [run_append]
  cases (run state cs).state with
  | none => exact named
  | some next => exact List.mem_append_left _ named

theorem scan_named_subset_append {cs ds : List Char} {name : String}
    (named : name ∈ (scan cs).named) : name ∈ (scan (cs ++ ds)).named := by
  cases cs with
  | nil => simp [scan, run] at named
  | cons c rest =>
      by_cases open_ : c = '<'
      · subst open_
        exact run_named_subset_append named
      · have whole : ∀ more, scan (c :: more) = run .start (c :: more) := by
          intro more
          unfold scan
          split
          · rename_i same
            exact absurd (List.cons.inj same).1 open_
          · rfl
        rw [whole] at named
        rw [List.cons_append, whole, ← List.cons_append]
        exact run_named_subset_append named

theorem mem_collect {signature name : String} {names : NameSet} :
    name ∈ collect signature names ↔ name ∈ names ∨ name ∈ classTypes signature :=
  NameSet.mem_insertAll

end DependencyAudit.TypeText.Signature
