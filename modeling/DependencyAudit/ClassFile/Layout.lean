/-
# DependencyAudit.ClassFile.Layout -- the octets of a class file

A `Layout` is a class file as its format describes it: constants of every kind,
indices, members and attributes.  `encode` writes it out, numbers with their most
significant octet first.  Counts and lengths take their fields' widths, so a list
too long for its count is written in full under the count's low bits.  No
constant is empty (`Entry.length_encode_pos`), and none takes more than two
indices (`Entry.slots_le_two`).

The octets of a text constant are kept as they are.  The format has them spell
the text in a UTF-8 of its own, with surrogates for supplementary characters and
two octets for NUL, which is left to whoever says what a layout means.
-/
import DependencyAudit.ClassFile.Basic
import DependencyAudit.Octets

namespace DependencyAudit.ClassFile

open DependencyAudit.Octets

set_option autoImplicit false

/-! ## Constants -/

/-- A constant of the pool, as written. -/
inductive Entry where
  | utf8 (octets : List UInt8)
  | integer (bits : UInt32)
  | float (bits : UInt32)
  | long (bits : UInt64)
  | double (bits : UInt64)
  | classRef (name : UInt16)
  | string (text : UInt16)
  | fieldRef (owner pair : UInt16)
  | methodRef (owner pair : UInt16)
  | interfaceMethodRef (owner pair : UInt16)
  | nameAndType (name descriptor : UInt16)
  | methodHandle (kind : UInt8) (reference : UInt16)
  | methodType (descriptor : UInt16)
  | dynamic (bootstrap pair : UInt16)
  | invokeDynamic (bootstrap pair : UInt16)
  | module (name : UInt16)
  | package (name : UInt16)
deriving Repr, DecidableEq

namespace Entry

/-- The number of indices a constant takes. -/
def slots : Entry → Nat
  | .long _ | .double _ => 2
  | _ => 1

def encode : Entry → List UInt8
  | .utf8 octets => 1 :: big16 (UInt16.ofNat octets.length) ++ octets
  | .integer bits => 3 :: big32 bits
  | .float bits => 4 :: big32 bits
  | .long bits => 5 :: big64 bits
  | .double bits => 6 :: big64 bits
  | .classRef name => 7 :: big16 name
  | .string text => 8 :: big16 text
  | .fieldRef owner pair => 9 :: big16 owner ++ big16 pair
  | .methodRef owner pair => 10 :: big16 owner ++ big16 pair
  | .interfaceMethodRef owner pair => 11 :: big16 owner ++ big16 pair
  | .nameAndType name descriptor => 12 :: big16 name ++ big16 descriptor
  | .methodHandle kind reference => 15 :: kind :: big16 reference
  | .methodType descriptor => 16 :: big16 descriptor
  | .dynamic bootstrap pair => 17 :: big16 bootstrap ++ big16 pair
  | .invokeDynamic bootstrap pair => 18 :: big16 bootstrap ++ big16 pair
  | .module name => 19 :: big16 name
  | .package name => 20 :: big16 name

end Entry

/-! ## Attributes, members and the whole -/

/-- What the octets of an attribute hold. -/
inductive AttributeBody where
  /-- The index of a signature. -/
  | signature (index : UInt16)
  /-- The indices of the declared exceptions. -/
  | exceptions (indices : List UInt16)
  | other (octets : List UInt8)
deriving Repr, DecidableEq

/-- A list under its count. -/
def encodeCounted {α : Type} (encodeOne : α → List UInt8) (values : List α) : List UInt8 :=
  big16 (UInt16.ofNat values.length) ++ values.flatMap encodeOne

namespace AttributeBody

def encode : AttributeBody → List UInt8
  | .signature index => big16 index
  | .exceptions indices => encodeCounted big16 indices
  | .other octets => octets

end AttributeBody

/-- An attribute under the index of its name. -/
structure Attribute where
  name : UInt16
  body : AttributeBody
deriving Repr, DecidableEq

namespace Attribute

def encode (item : Attribute) : List UInt8 :=
  big16 item.name ++ big32 (UInt32.ofNat item.body.encode.length) ++ item.body.encode

end Attribute

/-- A field or method, as written. -/
structure MemberLayout where
  access : AccessFlags
  name : UInt16
  descriptor : UInt16
  attributes : List Attribute
deriving Repr, DecidableEq

namespace MemberLayout

def encode (member : MemberLayout) : List UInt8 :=
  big16 member.access.bits ++ big16 member.name ++ big16 member.descriptor ++
    encodeCounted Attribute.encode member.attributes

end MemberLayout

/-- A class file, as written. -/
structure Layout where
  minorVersion : UInt16
  majorVersion : UInt16
  pool : List Entry
  access : AccessFlags
  thisClass : UInt16
  /-- 0 for none. -/
  superclass : UInt16
  interfaces : List UInt16
  fields : List MemberLayout
  methods : List MemberLayout
  attributes : List Attribute
deriving Repr, DecidableEq

namespace Layout

/-- The number of indices that a list of constants takes. -/
def slots (pool : List Entry) : Nat :=
  pool.foldr (fun entry later => entry.slots + later) 0

def encode (layout : Layout) : List UInt8 :=
  big32 0xCAFEBABE ++ big16 layout.minorVersion ++ big16 layout.majorVersion ++
    big16 (UInt16.ofNat (slots layout.pool + 1)) ++ layout.pool.flatMap Entry.encode ++
    big16 layout.access.bits ++ big16 layout.thisClass ++ big16 layout.superclass ++
    encodeCounted big16 layout.interfaces ++ encodeCounted MemberLayout.encode layout.fields ++
    encodeCounted MemberLayout.encode layout.methods ++
    encodeCounted Attribute.encode layout.attributes

end Layout

/-! ## Facts -/

theorem Entry.slots_le_two (entry : Entry) : entry.slots ≤ 2 := by
  cases entry <;> simp [Entry.slots]

theorem Entry.length_encode_pos (entry : Entry) : 0 < entry.encode.length := by
  cases entry <;> simp [Entry.encode]

end DependencyAudit.ClassFile
