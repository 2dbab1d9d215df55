/-
# DependencyAudit.ClassFile.ConstantPool -- the constants of a class file

Every name in a class file is an index into its constant pool.  The pool keeps
the constants that lead to names and descriptors; all others are `untyped`, and
so are the unused index 0 and the second index of a long or double.

`readPool` reads the pool, `text`, `className`, `classNames` and `descriptors`
look things up.  A look-up fails with the very index that did not lead to a
constant of the kind required (`text_eq_ok_iff`, `internalName_eq_ok_iff`).
-/
import DependencyAudit.ClassName
import DependencyAudit.ClassFile.Reader
import DependencyAudit.Text.Utf8

namespace DependencyAudit.ClassFile

open DependencyAudit.Text

set_option autoImplicit false

/-- A constant, as far as it leads to names. -/
inductive Constant where
  | text (value : String)
  | classRef (name : UInt16)
  | nameAndType (descriptor : UInt16)
  | methodType (descriptor : UInt16)
  | untyped
deriving Repr, DecidableEq

/-- The constants by index. -/
structure ConstantPool where
  constants : Array Constant
deriving Repr, DecidableEq

namespace ConstantPool

/-! ## Reading -/

/-- Reads a constant; the flag says that it takes two indices. -/
def readConstant : Reader (Constant × Bool) := do
  let tag ← Reader.byte
  match tag.toNat with
  | 1 =>
      let length ← Reader.word16
      let octets ← Reader.take length.toNat
      return (.text (String.ofList (Utf8.decodeLossy octets)), false)
  | 3 | 4 => Reader.skip 4; return (.untyped, false)
  | 5 | 6 => Reader.skip 8; return (.untyped, true)
  | 7 => return (.classRef (← Reader.word16), false)
  | 8 | 19 | 20 => Reader.skip 2; return (.untyped, false)
  | 9 | 10 | 11 | 17 | 18 => Reader.skip 4; return (.untyped, false)
  | 12 => Reader.skip 2; return (.nameAndType (← Reader.word16), false)
  | 15 => Reader.skip 3; return (.untyped, false)
  | 16 => return (.methodType (← Reader.word16), false)
  | _ => Reader.fail (.unknownConstant tag)

/-- Reads the constants for `count` more indices; the flag says that the first
of these indices belongs to the constant before it. -/
def readFrom : Nat → Bool → Array Constant → Reader (Array Constant)
  | 0, _, constants => return constants
  | count + 1, true, constants => readFrom count false (constants.push .untyped)
  | count + 1, false, constants => do
      let (constant, wide) ← readConstant
      readFrom count wide (constants.push constant)

/-- Reads a pool: the number of its indices, index 0 included, then its constants. -/
def readPool : Reader ConstantPool := do
  let count ← Reader.word16
  return ⟨← readFrom (count.toNat - 1) false #[.untyped]⟩

/-! ## Look-up -/

/-- The text at an index. -/
def text (pool : ConstantPool) (index : UInt16) : Except ClassFileError String :=
  match pool.constants[index.toNat]? with
  | some (.text value) => .ok value
  | _ => .error (.badIndex index)

/-- The internal name of the class at an index. -/
def internalName (pool : ConstantPool) (index : UInt16) : Except ClassFileError String :=
  match pool.constants[index.toNat]? with
  | some (.classRef name) => pool.text name
  | _ => .error (.badIndex index)

/-- The class name at an index. -/
def className (pool : ConstantPool) (index : UInt16) : Except ClassFileError String :=
  (pool.internalName index).map ClassName.ofInternal

/-- The index of the name of a class constant. -/
def classNameIndex? : Constant → Option UInt16
  | .classRef name => some name
  | _ => none

/-- The index of the descriptor of a constant that has one. -/
def descriptorIndex? : Constant → Option UInt16
  | .nameAndType descriptor => some descriptor
  | .methodType descriptor => some descriptor
  | _ => none

/-- The texts at a list of indices. -/
def texts (pool : ConstantPool) (indices : List UInt16) : Except ClassFileError (List String) :=
  indices.mapM pool.text

/-- The internal names of all class constants, in order. -/
def classNames (pool : ConstantPool) : Except ClassFileError (List String) :=
  pool.texts (pool.constants.toList.filterMap classNameIndex?)

/-- The descriptors of all constants that have one, in order. -/
def descriptors (pool : ConstantPool) : Except ClassFileError (List String) :=
  pool.texts (pool.constants.toList.filterMap descriptorIndex?)

/-! ## Facts -/

theorem text_eq_ok_iff {pool : ConstantPool} {index : UInt16} {value : String} :
    pool.text index = .ok value ↔ pool.constants[index.toNat]? = some (.text value) := by
  unfold text
  split
  · rename_i other found
    simp [found]
  · rename_i other
    constructor
    · intro impossible
      cases impossible
    · intro found
      exact absurd found (other value)

theorem internalName_eq_ok_iff {pool : ConstantPool} {index : UInt16} {value : String} :
    pool.internalName index = .ok value ↔
      ∃ name, pool.constants[index.toNat]? = some (.classRef name) ∧
        pool.text name = .ok value := by
  unfold internalName
  split
  · rename_i name found
    simp [found]
  · rename_i other
    constructor
    · intro impossible
      cases impossible
    · rintro ⟨name, found, _⟩
      exact absurd found (other name)

end ConstantPool

end DependencyAudit.ClassFile
