/-
# DependencyAudit.ClassName -- names of classes and where they are stored

A class has an internal name (`com/foo/Bar`), used inside class files, and a
class name (`com.foo.Bar`), used everywhere else; `ofInternal` turns the first
into the second.  A class name holds no slash (`not_mem_slash_ofInternal`), and
a name without one is left alone (`ofInternal_eq_self`).

`ofEntry?` reads the class name off the place a class is stored at: an archive
entry or the path of a file below a classes directory.  Entries of a versioned
section (`META-INF/versions/11/...`) belong to the class they override; other
`META-INF` content, module descriptors and package descriptors are no classes.
-/
import DependencyAudit.Text.Blank

namespace DependencyAudit.ClassName

open DependencyAudit.Text

set_option autoImplicit false

/-! ## Internal names -/

/-- A dot where an internal name has a slash. -/
def dotted (cs : List Char) : List Char :=
  cs.map fun c => if c = '/' then '.' else c

/-- The class name of an internal name. -/
def ofInternal (internal : String) : String :=
  String.ofList (dotted internal.toList)

/-! ## Entries -/

/-- The stem of a versioned entry `versions/<digits>/<stem>`. -/
def versionedStem? (cs : List Char) : Option (List Char) := do
  let versioned ← after? "versions/".toList cs
  let version := versioned.takeWhile (· ≠ '/')
  match versioned.dropWhile (· ≠ '/') with
  | [] => none
  | _ :: stem => if version ≠ [] ∧ version.all Char.isDigit then some stem else none

/-- The stem of an entry without its `META-INF` section, if the section holds
classes. -/
def baseStem? (stem : List Char) : Option (List Char) :=
  match after? "META-INF/".toList stem with
  | some metaInf => versionedStem? metaInf
  | none => some stem

/-- A stem that names no class: nothing, a module or a package descriptor. -/
def isDescriptorStem (stem : List Char) : Bool :=
  stem.isEmpty || stem == "module-info".toList || (before? "/module-info".toList stem).isSome ||
    (before? "package-info".toList stem).isSome

/-- The class stored at an entry, given as characters. -/
def ofEntryChars? (entry : List Char) : Option (List Char) := do
  let path := (entry.dropWhile (· = '/')).map fun c => if c = '\\' then '/' else c
  let stem ← before? ".class".toList path
  let base ← baseStem? stem
  if isDescriptorStem base then none else some (dotted base)

/-- The class stored at an archive entry or relative file path, if it is one. -/
def ofEntry? (entry : String) : Option String :=
  (ofEntryChars? entry.toList).map String.ofList

/-! ## Facts -/

theorem not_mem_slash_dotted (cs : List Char) : '/' ∉ dotted cs := by
  intro member
  obtain ⟨c, _, image⟩ := List.mem_map.mp member
  split at image
  · exact absurd image (by decide)
  · rename_i other
    exact other image

theorem dotted_eq_self {cs : List Char} (flat : '/' ∉ cs) : dotted cs = cs := by
  refine (List.map_congr_left fun c member => ?_).trans (List.map_id cs)
  have other : c ≠ '/' := fun same => flat (same ▸ member)
  simp [other]

theorem not_mem_slash_ofInternal (internal : String) : '/' ∉ (ofInternal internal).toList := by
  rw [ofInternal, String.toList_ofList]
  exact not_mem_slash_dotted internal.toList

theorem ofInternal_eq_self {internal : String} (flat : '/' ∉ internal.toList) :
    ofInternal internal = internal := by
  rw [ofInternal, dotted_eq_self flat, String.ofList_toList]

end DependencyAudit.ClassName
