/-
# DependencyAudit.ClassFile.Error -- why octets are no class file

The causes for which reading a class file stops, and the text of each.
-/

namespace DependencyAudit

set_option autoImplicit false

/-- A fault of a class file, or of a type text inside one. -/
inductive ClassFileError where
  /-- The octets end inside a part. -/
  | unexpectedEnd
  /-- The first four octets are not those of a class file. -/
  | badMagic
  /-- A constant of an unknown kind. -/
  | unknownConstant (tag : UInt8)
  /-- An index at which there is no constant of the kind its place requires. -/
  | badIndex (index : UInt16)
  /-- A type text outside of its grammar. -/
  | malformedTypes (text : String)
deriving Repr, DecidableEq

namespace ClassFileError

def message : ClassFileError → String
  | .unexpectedEnd => "unexpected end of class file"
  | .badMagic => "invalid class file magic header"
  | .unknownConstant tag => "unsupported constant pool tag " ++ toString tag.toNat
  | .badIndex index => "invalid constant pool index " ++ toString index.toNat
  | .malformedTypes text => "malformed descriptor: " ++ text

end ClassFileError

end DependencyAudit
