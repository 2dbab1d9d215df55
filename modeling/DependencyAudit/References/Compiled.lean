/-
# DependencyAudit.References.Compiled -- references in compiled classes

The compiled output of a project is a directory of classes, a jar, or one class
file.  `unitsAt` reads its class files in order, `ofUnits` gathers what they refer
to.  Classes that the output itself defines are no references, and an output that
does not exist has none (`at_of_missing`).

Faults of files come before faults of classes, and of several the first in order is
reported.

A record of an archive declares how large its entry is when unpacked.  The program
sets aside so much memory before it unpacks the entry, and is stopped by the system
if there is not so much.  Memory is no part of what is said here: `unitOfRecord`
leaves the declared size alone and goes by the octets.
-/
import DependencyAudit.Archive.Zip
import DependencyAudit.AuditError
import DependencyAudit.ClassFile.Parser
import DependencyAudit.ClassName
import DependencyAudit.FileSystem.Walk
import DependencyAudit.References.Basic

namespace DependencyAudit

open Archive.Zip

set_option autoImplicit false

/-- A class file to be read, with the path that messages show. -/
structure ClassUnit where
  path : Path
  octets : List UInt8
deriving Repr, DecidableEq

/-- What a compiled output defines and refers to. -/
structure CompiledOutput where
  used : NameSet
  api : NameSet
  defined : NameSet
deriving DecidableEq

namespace CompiledOutput

/-! ## Class files -/

/-- The class file that a walk comes upon, if it is one. -/
def unitOfFinding : Except Path FileSystem.WalkedFile → Except AuditError (Option ClassUnit)
  | .error fault => .error (.unreadable fault)
  | .ok file =>
      if (ClassName.ofEntry? file.name).isNone then .ok none
      else match file.octets? with
        | some octets => .ok (some ⟨file.path, octets⟩)
        | none => .error (.unreadable file.path)

/-- The class files below a directory. -/
def unitsBelow (files : FileSystem) (path : Path) : Except AuditError (List ClassUnit) := do
  return (← (files.walk path).mapM unitOfFinding).filterMap id

/-- The class file that an archive's record stands for, if it is one. -/
def unitOfRecord (path : Path) (archive : List UInt8) (record : Record) :
    Except AuditError (Option ClassUnit) :=
  match record.locate? archive with
  | none => .error (.unreadable path)
  | some packed =>
      if record.isDirectory || (ClassName.ofEntry? record.name).isNone then .ok none
      else
        let place := path.join ⟨record.name⟩
        match record.unpack? packed with
        | none => .error (.unreadable place)
        | some octets => .ok (some ⟨place, octets⟩)

/-- The class files in an archive. -/
def unitsInArchive (path : Path) (archive : List UInt8) : Except AuditError (List ClassUnit) :=
  match directory? archive with
  | none => .error (.unreadable path)
  | some records => do return (← records.mapM (unitOfRecord path archive)).filterMap id

/-- The class files of the output at a path. -/
def unitsAt (files : FileSystem) (path : Path) : Except AuditError (List ClassUnit) :=
  if !files.exists path then .ok []
  else if files.isDirectory path then unitsBelow files path
  else match files.read? path with
    | none => .error (.unreadable path)
    | some octets =>
        if path.hasExtension "jar" then unitsInArchive path octets else .ok [⟨path, octets⟩]

/-! ## References -/

/-- The class in a class file. -/
def parseUnit (source : ClassUnit) : Except AuditError ClassFile :=
  (ClassFile.parse source.octets).mapError (.classFile source.path)

/-- What some classes together define and refer to. -/
def ofClasses (classes : List ClassFile) : CompiledOutput :=
  let defined := NameSet.ofList (classes.map ClassFile.name)
  { used := (NameSet.unions (classes.map ClassFile.referencedClasses)).diff defined
    api := (NameSet.unions (classes.map ClassFile.apiClasses)).diff defined
    defined }

def ofUnits (units : List ClassUnit) : Except AuditError CompiledOutput :=
  (units.mapM parseUnit).map ofClasses

/-- What the output at a path defines and refers to. -/
def «at» (files : FileSystem) (path : Path) : Except AuditError CompiledOutput :=
  (unitsAt files path).bind ofUnits

/-- The references of an output. -/
def references (output : CompiledOutput) : References :=
  ⟨output.used, output.api⟩

/-! ## Facts -/

/-- An output that does not exist defines nothing and refers to nothing. -/
theorem at_of_missing {files : FileSystem} {path : Path} (missing : files.exists path = false) :
    CompiledOutput.at files path = .ok (ofClasses []) := by
  simp [CompiledOutput.at, unitsAt, missing, Except.bind, ofUnits, pure, Except.pure, Except.map]

end CompiledOutput

end DependencyAudit
