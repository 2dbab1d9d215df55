/-
# DependencyAudit.ClassFile.Basic -- a compiled class and what it refers to

A `ClassFile` keeps the parts of a compiled class that name other classes: its
supertypes, its members with their descriptors, signatures and declared
exceptions, and the class names and descriptors of its constant pool.

`referencedClasses` is every class it needs; `apiClasses` is those that its
users see: the supertypes, and the types of the public and protected members of
a public class.  A class never refers to itself
(`name_notMem_referencedClasses`, `name_notMem_apiClasses`), and a module
descriptor refers to nothing (`referencedClasses_of_module`,
`apiClasses_of_module`).
-/
import DependencyAudit.ClassName
import DependencyAudit.NameSet
import DependencyAudit.TypeText.Descriptor
import DependencyAudit.TypeText.Signature

namespace DependencyAudit

open TypeText

set_option autoImplicit false

/-! ## Access flags -/

/-- The access flags of a class or member. -/
structure AccessFlags where
  bits : UInt16
deriving Repr, DecidableEq

namespace AccessFlags

def isPublic (flags : AccessFlags) : Bool :=
  flags.bits &&& 0x0001 != 0

def isProtected (flags : AccessFlags) : Bool :=
  flags.bits &&& 0x0004 != 0

/-- Made by the compiler, invisible to other sources. -/
def isSynthetic (flags : AccessFlags) : Bool :=
  flags.bits &&& 0x1000 != 0

def isModule (flags : AccessFlags) : Bool :=
  flags.bits &&& 0x8000 != 0

end AccessFlags

/-! ## Classes -/

/-- A field or method of a class. -/
structure Member where
  access : AccessFlags
  name : String
  descriptor : String
  signature : Option String
  /-- The declared exceptions, as class names. -/
  exceptions : List String
deriving Repr, DecidableEq

namespace Member

/-- Visible to other classes: public or protected, and not synthetic. -/
def isApi (member : Member) : Bool :=
  (member.access.isPublic || member.access.isProtected) && !member.access.isSynthetic

end Member

/-- The parts of a class file that name classes. -/
structure ClassFile where
  /-- The class name (`com.foo.Outer$Inner`). -/
  name : String
  access : AccessFlags
  superclass : Option String
  interfaces : List String
  signature : Option String
  fields : List Member
  methods : List Member
  /-- The internal names of the class constants, in pool order. -/
  poolClasses : List String
  /-- The descriptors of the name-and-type and method-type constants, in pool order. -/
  poolDescriptors : List String
deriving Repr, DecidableEq

namespace ClassFile

def isPublic (file : ClassFile) : Bool :=
  file.access.isPublic

def isModule (file : ClassFile) : Bool :=
  file.access.isModule

/-- All fields, then all methods. -/
def members (file : ClassFile) : List Member :=
  file.fields ++ file.methods

/-! ## References -/

/-- The classes that a class constant names: those inside the brackets of an
array type, and otherwise the one it is. -/
def constantTypes (internal : String) : List String :=
  match internal.toList with
  | '[' :: _ => Descriptor.classTypes internal
  | _ => [ClassName.ofInternal internal]

/-- The classes of a signature, if there is one. -/
def signatureTypes (signature : Option String) : List String :=
  signature.elim [] Signature.classTypes

/-- The classes in the descriptor and the signature of a member. -/
def memberTypes (member : Member) : List String :=
  Descriptor.classTypes member.descriptor ++ signatureTypes member.signature

/-- Every class mentioned anywhere in a class file. -/
def mentionedTypes (file : ClassFile) : List String :=
  file.poolClasses.flatMap constantTypes ++ file.poolDescriptors.flatMap Descriptor.classTypes ++
    file.members.flatMap memberTypes ++ signatureTypes file.signature

/-- Every class mentioned by what other classes can see of a class. -/
def surfaceTypes (file : ClassFile) : List String :=
  file.superclass.toList ++ file.interfaces ++ signatureTypes file.signature ++
    (file.members.filter Member.isApi).flatMap fun member =>
      memberTypes member ++ member.exceptions

/-- Every other class that a class refers to. -/
def referencedClasses (file : ClassFile) : NameSet :=
  if file.isModule then .empty
  else (NameSet.ofList file.mentionedTypes).erase file.name

/-- Every other class in the surface of a public class. -/
def apiClasses (file : ClassFile) : NameSet :=
  if !file.isPublic || file.isModule then .empty
  else (NameSet.ofList file.surfaceTypes).erase file.name

/-! ## Facts -/

theorem name_notMem_referencedClasses (file : ClassFile) :
    file.name ∉ file.referencedClasses := by
  unfold referencedClasses
  split <;> simp

theorem name_notMem_apiClasses (file : ClassFile) : file.name ∉ file.apiClasses := by
  unfold apiClasses
  split <;> simp

theorem referencedClasses_of_module {file : ClassFile} (module : file.isModule = true) :
    file.referencedClasses = .empty := by
  simp [referencedClasses, module]

theorem apiClasses_of_module {file : ClassFile} (module : file.isModule = true) :
    file.apiClasses = .empty := by
  simp [apiClasses, module]

end ClassFile

end DependencyAudit
