/-
# DependencyAudit.Toml.Value -- values of TOML

`Fields` are the keys of a table that is still open, each with its item.  A table
is open to further keys as far as its standing allows: one that a header or braces
have defined takes no keys from elsewhere, one that only headers of its children
imply may still be defined by a header of its own, and one that dotted keys have
opened takes further dotted keys only.

`add` puts a value under a dotted key, `openTable` and `openElement` define what a
header names.  Each refuses to define anything twice, and what is refused at a key
is refused as a whole (`alter_eq_none`).
-/

namespace DependencyAudit.Toml

set_option autoImplicit false

/-- A closed value; of numbers and points in time only the kind is kept. -/
inductive Value where
  | text (text : String)
  | flag (flag : Bool)
  | number
  | instant
  | array (items : List Value)
  | table (fields : List (String × Value))
deriving Inhabited

/-- How a table has come about. -/
inductive Standing where
  | defined
  | implied
  | dotted
deriving Repr, DecidableEq

/-- What stands under a key of an open table. -/
inductive Item where
  | value (value : Value)
  | table (standing : Standing) (fields : List (String × Item))
  /-- The tables that headers in double brackets have added, the latest first. -/
  | elements (tables : List (List (String × Item)))

abbrev Fields := List (String × Item)

namespace Fields

/-- Changes what stands under a key, if the change is not refused. -/
def alter (change : Option Item → Option Item) (key : String) : Fields → Option Fields
  | [] => (change none).map fun item => [(key, item)]
  | (name, item) :: rest =>
      if name = key then (change (some item)).map fun changed => (name, changed) :: rest
      else (alter change key rest).map ((name, item) :: ·)

/-- Changes the table at a path.  Keys of headers lead through tables of any
standing, dotted keys not through defined ones; both lead into the latest of the
tables that headers have added. -/
def descend (dotted : Bool) (change : Standing → Fields → Option Fields) :
    List String → Standing → Fields → Option Fields
  | [], standing, fields => change standing fields
  | key :: path, _, fields =>
      fields.alter (fun
        | none =>
            let standing := if dotted then Standing.dotted else Standing.implied
            (descend dotted change path standing []).map (.table standing)
        | some (.table standing inner) =>
            if dotted && standing = .defined then none
            else (descend dotted change path standing inner).map (.table standing)
        | some (.elements (latest :: earlier)) =>
            (descend dotted change path .defined latest).map fun changed =>
              .elements (changed :: earlier)
        | some _ => none) key

/-- Puts a value under a dotted key. -/
def add (path : List String) (value : Value) (fields : Fields) : Option Fields :=
  descend true
    (fun standing inner =>
      if decide (standing = .dotted) = path.dropLast.isEmpty then none
      else inner.alter (fun | none => some (.value value) | some _ => none)
        (path.getLast?.getD ""))
    path.dropLast .defined fields

/-- Puts several values, one after the other. -/
def addAll : List (List String × Value) → Fields → Option Fields
  | [], fields => some fields
  | (path, value) :: rest, fields => (fields.add path value).bind (addAll rest)

/-- Defines the table that a header names. -/
def openTable (path : List String) (pairs : List (List String × Value)) (fields : Fields) :
    Option Fields :=
  descend false
    (fun _ inner =>
      inner.alter (fun
        | none => (addAll pairs []).map (.table .defined)
        | some (.table .implied known) => (addAll pairs known).map (.table .defined)
        | some _ => none) (path.getLast?.getD ""))
    path.dropLast .defined fields

/-- Adds a table to those that a header in double brackets names. -/
def openElement (path : List String) (pairs : List (List String × Value)) (fields : Fields) :
    Option Fields :=
  descend false
    (fun _ inner =>
      inner.alter (fun
        | none => (addAll pairs []).map fun table => .elements [table]
        | some (.elements tables) => (addAll pairs []).map fun table => .elements (table :: tables)
        | some _ => none) (path.getLast?.getD ""))
    path.dropLast .defined fields

end Fields

mutual

/-- The closed value of an item. -/
def Item.close : Item → Value
  | .value value => value
  | .table _ fields => .table (closeFields fields)
  | .elements tables => .array (closeTables tables).reverse

/-- The closed values of a table. -/
def closeFields : List (String × Item) → List (String × Value)
  | [] => []
  | (key, item) :: rest => (key, item.close) :: closeFields rest

/-- The closed values of several tables. -/
def closeTables : List (List (String × Item)) → List Value
  | [] => []
  | fields :: rest => .table (closeFields fields) :: closeTables rest

end

/-! ## Facts -/

/-- A change that is refused for what stands under the key is refused. -/
theorem Fields.alter_eq_none {change : Option Item → Option Item} {key : String} {fields : Fields}
    (refused : change (fields.lookup key) = none) : fields.alter change key = none := by
  induction fields with
  | nil =>
      have absent : change none = none := refused
      simp [alter, absent]
  | cons head rest ih =>
      obtain ⟨name, item⟩ := head
      by_cases same : name = key
      · subst same
        have found : change (some item) = none := by
          simpa using refused
        simp [alter, found]
      · have other : (key == name) = false := by
          simpa using fun h : key = name => same h.symm
        have later : change (rest.lookup key) = none := by
          simpa [List.lookup_cons, other] using refused
        simp [alter, same, ih later]

end DependencyAudit.Toml
