/-
# DependencyAudit.ClassFile.Parser -- octets to a class file

`parse` reads the parts of a class file in their order: magic, versions,
constant pool, access flags, class and superclass, interfaces, fields, methods,
attributes.  Names are looked up as soon as their part has been read; the name
of the class itself, its superclass and the pool's own entries come last.  What
follows the last attribute does not matter.

Of the attributes only `Signature`, of which the last counts, and `Exceptions`,
which add up, are read; all others are passed over by their length.
-/
import DependencyAudit.ClassFile.Basic
import DependencyAudit.ClassFile.ConstantPool

namespace DependencyAudit.ClassFile

set_option autoImplicit false

/-! ## Attributes -/

/-- What a list of attributes says about types. -/
structure Attributes where
  signature : Option String
  /-- The declared exceptions, as class names. -/
  exceptions : List String
deriving Repr, DecidableEq

namespace Attributes

def none : Attributes := ⟨Option.none, []⟩

/-- Adds what an attribute of the given name says in its body. -/
def add (pool : ConstantPool) (sofar : Attributes) (name : String) (body : List UInt8) :
    Reader Attributes :=
  if name = "Signature" then
    Reader.within body do
      let index ← Reader.word16
      let signature ← Reader.ofExcept (pool.text index)
      return { sofar with signature := some signature }
  else if name = "Exceptions" then
    Reader.within body do
      let exceptions ← Reader.counted do
        let index ← Reader.word16
        Reader.ofExcept (pool.className index)
      return { sofar with exceptions := sofar.exceptions ++ exceptions }
  else return sofar

/-- Reads `count` attributes on top of what is known. -/
def readFrom (pool : ConstantPool) : Nat → Attributes → Reader Attributes
  | 0, sofar => return sofar
  | count + 1, sofar => do
      let index ← Reader.word16
      let length ← Reader.word32
      let body ← Reader.take length.toNat
      let name ← Reader.ofExcept (pool.text index)
      readFrom pool count (← sofar.add pool name body)

/-- Reads a counted list of attributes. -/
def read (pool : ConstantPool) : Reader Attributes := do
  let count ← Reader.word16
  readFrom pool count.toNat none

end Attributes

/-! ## Parts -/

/-- Reads a field or method. -/
def readMember (pool : ConstantPool) : Reader Member := do
  let access ← Reader.word16
  let nameIndex ← Reader.word16
  let descriptorIndex ← Reader.word16
  let attributes ← Attributes.read pool
  let name ← Reader.ofExcept (pool.text nameIndex)
  let descriptor ← Reader.ofExcept (pool.text descriptorIndex)
  return ⟨⟨access⟩, name, descriptor, attributes.signature, attributes.exceptions⟩

/-- Reads the class name of an interface. -/
def readInterface (pool : ConstantPool) : Reader String := do
  let index ← Reader.word16
  Reader.ofExcept (pool.className index)

/-- The name of a class: a module descriptor has a name of its own. -/
def ownName (pool : ConstantPool) (access : AccessFlags) (thisClass : UInt16) :
    Except ClassFileError String :=
  if access.isModule then .ok "module-info" else pool.className thisClass

/-- The superclass, unless its index is 0. -/
def superclassName (pool : ConstantPool) (index : UInt16) :
    Except ClassFileError (Option String) :=
  if index = 0 then .ok Option.none else (pool.className index).map some

/-! ## The whole -/

/-- Reads the magic number, whose absence is a fault of its own. -/
def readMagic : Reader Unit := do
  let magic ← Reader.word32
  if magic = 0xCAFEBABE then return () else Reader.fail .badMagic

/-- Reads a class file. -/
def read : Reader ClassFile := do
  readMagic
  Reader.skip 2
  Reader.skip 2
  let pool ← ConstantPool.readPool
  let bits ← Reader.word16
  let access : AccessFlags := ⟨bits⟩
  let thisClass ← Reader.word16
  let superIndex ← Reader.word16
  let interfaces ← Reader.counted (readInterface pool)
  let fields ← Reader.counted (readMember pool)
  let methods ← Reader.counted (readMember pool)
  let attributes ← Attributes.read pool
  let name ← Reader.ofExcept (ownName pool access thisClass)
  let superclass ← Reader.ofExcept (superclassName pool superIndex)
  let poolClasses ← Reader.ofExcept pool.classNames
  let poolDescriptors ← Reader.ofExcept pool.descriptors
  return {
    name, access, superclass, interfaces, fields, methods, poolClasses, poolDescriptors
    signature := attributes.signature }

/-- The class in a list of octets. -/
def parse (octets : List UInt8) : Except ClassFileError ClassFile :=
  (read.run octets).map Prod.fst

end DependencyAudit.ClassFile
