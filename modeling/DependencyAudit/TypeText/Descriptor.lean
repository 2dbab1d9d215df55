/-
# DependencyAudit.TypeText.Descriptor -- the classes of a descriptor

A descriptor (`(ILjava/lang/String;)V`, `[Lcom/foo/Bar;`) names a class between
an `L` and the next semicolon.  The scanner is a machine of two states that
reads one character at a time: outside of a name it waits for an `L`, inside it
collects until the semicolon.  A name that is never closed counts for nothing.
The scan of a text is the scan of its beginning, resumed (`scan_append`), so
what a beginning names the whole names too (`scan_classes_subset_append`).
-/
import DependencyAudit.ClassName
import DependencyAudit.NameSet

namespace DependencyAudit.TypeText.Descriptor

set_option autoImplicit false

/-- Where the scanner stands: between names, or inside one, with what it has
read of that name, latest character first. -/
inductive Place where
  | outside
  | inside (reversed : List Char)
deriving Repr, DecidableEq

/-- Reads one character: the next place and the class it completed, if any. -/
def step : Place → Char → Place × Option String
  | .outside, c => (if c = 'L' then .inside [] else .outside, none)
  | .inside reversed, c =>
      if c = ';' then (.outside, some (String.ofList (ClassName.dotted reversed.reverse)))
      else (.inside (c :: reversed), none)

/-- Reads a text: where the scanner ends and the classes it completed, in order. -/
def scan : Place → List Char → Place × List String
  | place, [] => (place, [])
  | place, c :: rest =>
      let next := step place c
      let tail := scan next.1 rest
      (tail.1, next.2.toList ++ tail.2)

/-- The classes named in a descriptor, in order. -/
def classTypes (descriptor : String) : List String :=
  (scan .outside descriptor.toList).2

/-- Adds the classes of a descriptor to a set. -/
def collect (descriptor : String) (names : NameSet) : NameSet :=
  names.insertAll (classTypes descriptor)

/-! ## Facts -/

theorem scan_append (place : Place) (cs ds : List Char) :
    scan place (cs ++ ds) =
      ((scan (scan place cs).1 ds).1, (scan place cs).2 ++ (scan (scan place cs).1 ds).2) := by
  induction cs generalizing place with
  | nil => simp [scan]
  | cons c rest resume => simp [scan, resume, List.append_assoc]

theorem scan_classes_subset_append {place : Place} {cs ds : List Char} {name : String}
    (named : name ∈ (scan place cs).2) : name ∈ (scan place (cs ++ ds)).2 := by
  rw [scan_append]
  exact List.mem_append_left _ named

theorem mem_collect {descriptor name : String} {names : NameSet} :
    name ∈ collect descriptor names ↔ name ∈ names ∨ name ∈ classTypes descriptor :=
  NameSet.mem_insertAll

end DependencyAudit.TypeText.Descriptor
