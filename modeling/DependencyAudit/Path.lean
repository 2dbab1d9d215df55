/-
# DependencyAudit.Path -- paths as text and as components

A path is a text with slashes between its parts.  Messages show the text as it was
given; comparison goes by `components`, in which doubled slashes, a final slash and
dots other than a leading one do not count.  So `d//a` and `d/./a` are the path `d/a`,
and `./d/a` is not.  A path that is absolute replaces what it is joined to
(`join_absolute`).  A system takes a path only if its text is not too long
(`isAdmissible`), so there what does not count matters too.
-/
import DependencyAudit.Text.Blank
import DependencyAudit.Text.Split

namespace DependencyAudit

open Text

set_option autoImplicit false

/-- A path, as given. -/
structure Path where
  text : String
deriving Repr, DecidableEq, Inhabited

namespace Path

/-- A part of a path. -/
inductive Component where
  | root
  /-- A leading dot. -/
  | current
  | parent
  | normal (name : String)
deriving Repr, DecidableEq

/-- The texts between the slashes. -/
def segments (path : Path) : List String :=
  (splitOn '/' path.text.toList).map String.ofList

def isAbsolute (path : Path) : Bool :=
  path.text.toList.head? = some '/'

/-- What a segment after the first contributes. -/
def componentOf? (segment : String) : Option Component :=
  if segment = "" ∨ segment = "." then none
  else if segment = ".." then some .parent
  else some (.normal segment)

/-- The parts that matter, in order. -/
def components (path : Path) : List Component :=
  let others := path.segments.filterMap componentOf?
  if path.isAbsolute then .root :: others
  else if path.segments.head? = some "." then .current :: others
  else others

/-- Paths that are equal as far as their components go. -/
def Same (first second : Path) : Prop :=
  first.components = second.components

instance (first second : Path) : Decidable (Same first second) :=
  inferInstanceAs (Decidable (first.components = second.components))

/-! ## Composition -/

/-- A path below another one. -/
def join (path below : Path) : Path :=
  if below.isAbsolute ∨ path.text = "" then below
  else if path.text.toList.getLast? = some '/' then ⟨path.text ++ below.text⟩
  else ⟨path.text ++ "/" ++ below.text⟩

/-- Whether a segment after the first adds nothing to a path. -/
def isIdle (segment : String) : Bool :=
  (componentOf? segment).isNone

/-- The path without its last component and what adds nothing in front of that; the
rest stays as it was given. -/
def parent? (path : Path) : Option Path :=
  let first := path.segments.headD ""
  match path.segments.tail.reverse.dropWhile isIdle with
  | [] => if first = "" then none else some ⟨""⟩
  | _ :: above =>
      let kept := (above.dropWhile isIdle).reverse
      if first = "" ∧ kept = [] then some ⟨"/"⟩
      else some ⟨"/".intercalate (first :: kept)⟩

/-- A path and the paths above it, as far as a number of steps leads. -/
def ancestorsWithin : Nat → Path → List Path
  | 0, path => [path]
  | steps + 1, path => path :: (path.parent?.map (ancestorsWithin steps)).getD []

/-- A path and all paths above it, the nearest first. -/
def ancestors (path : Path) : List Path :=
  ancestorsWithin path.segments.length path

/-! ## Limits -/

/-- The most octets that the text of a path can have. -/
def longest : Nat := 4095

/-- Whether a system takes a path at all. -/
def isAdmissible (path : Path) : Bool :=
  path.text.utf8ByteSize ≤ longest && !path.text.toList.contains (Char.ofNat 0)

/-! ## Names -/

/-- The last component, if it is a name. -/
def fileName? (path : Path) : Option String :=
  match path.components.getLast? with
  | some (.normal name) => some name
  | _ => none

/-- What follows the last dot of a name that does not start with it. -/
def extensionOfName? (name : String) : Option String :=
  match cutAt? '.' name.toList.reverse with
  | some (reversed, rest) => if rest.isEmpty then none else some (String.ofList reversed.reverse)
  | none => none

/-- The extension of the last component. -/
def extension? (path : Path) : Option String :=
  path.fileName?.bind extensionOfName?

/-- Lower case for the letters of ASCII. -/
def asciiLower (text : String) : String :=
  String.ofList (text.toList.map Char.toLower)

/-- Whether the extension is the given one, small and capital letters alike. -/
def hasExtension (path : Path) (extension : String) : Bool :=
  path.extension?.map asciiLower = some extension

/-! ## Facts -/

theorem Same.refl (path : Path) : Same path path := rfl

theorem Same.symm {first second : Path} (same : Same first second) : Same second first :=
  Eq.symm same

theorem Same.trans {first second third : Path} (same : Same first second)
    (alike : Same second third) : Same first third :=
  Eq.trans same alike

theorem join_absolute {path below : Path} (absolute : below.isAbsolute = true) :
    path.join below = below := by
  simp [join, absolute]

end Path

end DependencyAudit
