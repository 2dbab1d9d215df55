/-
# DependencyAudit.ClassFile.Builder -- small classes to order

A `Builder` lists what a class file should say: its name, supertypes, members
and extra constants.  `layout` lays it out and `build` writes it.

Constants enter the pool in the order in which the parts need them: class,
superclass, interfaces, longs, class references, name-and-type pairs, fields,
methods, signature.  A text or class that is already there is shared; longs and
name-and-type pairs are not.  What is in the pool stays in the pool
(`Draft.entries_subset_text`).
-/
import DependencyAudit.ClassFile.Layout
import DependencyAudit.Text.Utf8

namespace DependencyAudit.ClassFile

open DependencyAudit.Text

set_option autoImplicit false

/-! ## Orders -/

/-- A field or method to be written. -/
structure MemberOrder where
  access : AccessFlags
  name : String
  descriptor : String
  signature : Option String
  /-- The declared exceptions, as internal names. -/
  exceptions : List String
deriving Repr, DecidableEq

/-- A class to be written; class names are internal names. -/
structure Builder where
  name : String
  access : AccessFlags
  superclass : Option String
  interfaces : List String
  signature : Option String
  fields : List MemberOrder
  methods : List MemberOrder
  classRefs : List String
  nameAndTypes : List (String × String)
  longs : List UInt64
deriving Repr, DecidableEq

namespace Builder

/-- A public class below `java/lang/Object`. -/
def ofName (name : String) : Builder where
  name
  access := ⟨0x0021⟩
  superclass := some "java/lang/Object"
  interfaces := []
  signature := none
  fields := []
  methods := []
  classRefs := []
  nameAndTypes := []
  longs := []

def setAccess (builder : Builder) (access : AccessFlags) : Builder :=
  { builder with access }

def setSuperclass (builder : Builder) (internal : String) : Builder :=
  { builder with superclass := some internal }

def setSignature (builder : Builder) (signature : String) : Builder :=
  { builder with signature := some signature }

def addInterface (builder : Builder) (internal : String) : Builder :=
  { builder with interfaces := builder.interfaces ++ [internal] }

def addField (builder : Builder) (access : AccessFlags) (name descriptor : String) : Builder :=
  { builder with fields := builder.fields ++ [⟨access, name, descriptor, none, []⟩] }

def addMethod (builder : Builder) (method : MemberOrder) : Builder :=
  { builder with methods := builder.methods ++ [method] }

/-- A class constant, as left by an instruction that uses the class. -/
def addClassRef (builder : Builder) (internal : String) : Builder :=
  { builder with classRefs := builder.classRefs ++ [internal] }

/-- A name-and-type constant, as left by an access to a member. -/
def addNameAndType (builder : Builder) (name descriptor : String) : Builder :=
  { builder with nameAndTypes := builder.nameAndTypes ++ [(name, descriptor)] }

def addLong (builder : Builder) (value : UInt64) : Builder :=
  { builder with longs := builder.longs ++ [value] }

end Builder

/-! ## The pool being filled -/

/-- The constants so far, each with its index. -/
structure Draft where
  entries : List Entry
  texts : List (String × UInt16)
  classes : List (String × UInt16)
deriving Repr, DecidableEq

namespace Draft

def empty : Draft := ⟨[], [], []⟩

/-- The index of the next constant. -/
def nextIndex (draft : Draft) : UInt16 :=
  UInt16.ofNat (Layout.slots draft.entries + 1)

/-- Puts a constant at the end. -/
def push (entry : Entry) : StateM Draft UInt16 := fun draft =>
  (draft.nextIndex, { draft with entries := draft.entries ++ [entry] })

/-- The index of a text. -/
def text (value : String) : StateM Draft UInt16 := fun draft =>
  match draft.texts.lookup value with
  | some index => (index, draft)
  | none =>
      let index := draft.nextIndex
      (index, { draft with
        entries := draft.entries ++ [.utf8 (Utf8.encodeString value)]
        texts := (value, index) :: draft.texts })

/-- The index of a class. -/
def classRef (internal : String) : StateM Draft UInt16 := do
  match (← get).classes.lookup internal with
  | some index => return index
  | none =>
      let name ← text internal
      let index ← push (.classRef name)
      modify fun draft => { draft with classes := (internal, index) :: draft.classes }
      return index

def nameAndType (pair : String × String) : StateM Draft UInt16 := do
  let name ← text pair.1
  let descriptor ← text pair.2
  push (.nameAndType name descriptor)

def long (value : UInt64) : StateM Draft UInt16 :=
  push (.long value)

def signature (value : String) : StateM Draft Attribute := do
  let name ← text "Signature"
  let index ← text value
  return ⟨name, .signature index⟩

def exceptions (internals : List String) : StateM Draft Attribute := do
  let name ← text "Exceptions"
  let indices ← internals.mapM classRef
  return ⟨name, .exceptions indices⟩

/-- The attributes of a member: its signature, if any, then its exceptions, if
any. -/
def attributes (member : MemberOrder) : StateM Draft (List Attribute) := do
  let signatures ← member.signature.toList.mapM signature
  if member.exceptions.isEmpty then return signatures
  else return signatures ++ [← exceptions member.exceptions]

def member (order : MemberOrder) : StateM Draft MemberLayout := do
  let name ← text order.name
  let descriptor ← text order.descriptor
  return ⟨order.access, name, descriptor, ← attributes order⟩

/-- What was in the pool before a text was looked up is there afterwards. -/
theorem entries_subset_text (value : String) (draft : Draft) (entry : Entry)
    (present : entry ∈ draft.entries) : entry ∈ ((text value).run draft).2.entries := by
  simp only [text, StateT.run]
  split
  · exact present
  · exact List.mem_append_left _ present

end Draft

namespace Builder

/-- Lays a class out over a pool. -/
def lay (builder : Builder) : StateM Draft Layout := do
  let thisClass ← Draft.classRef builder.name
  let superclasses ← builder.superclass.toList.mapM Draft.classRef
  let interfaces ← builder.interfaces.mapM Draft.classRef
  let _ ← builder.longs.mapM Draft.long
  let _ ← builder.classRefs.mapM Draft.classRef
  let _ ← builder.nameAndTypes.mapM Draft.nameAndType
  let fields ← builder.fields.mapM Draft.member
  let methods ← builder.methods.mapM Draft.member
  let attributes ← builder.signature.toList.mapM Draft.signature
  return {
    minorVersion := 0
    majorVersion := 52
    pool := (← get).entries
    access := builder.access
    superclass := superclasses.headD 0
    thisClass, interfaces, fields, methods, attributes }

/-- The class file, laid out. -/
def layout (builder : Builder) : Layout :=
  (builder.lay.run .empty).1

/-- The octets of the class file. -/
def build (builder : Builder) : List UInt8 :=
  builder.layout.encode

end Builder

end DependencyAudit.ClassFile
