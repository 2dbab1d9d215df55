/-
# DependencyAudit.References.Report -- references from graph reports

A directory of graph reports has one detailed report: the first file by name with
the extension `dot` that is not the summary.  A second report, on the public
surface, lies in the directory `api` inside it.  A report that is missing adds no
references (`ofDirectory_of_missing`).
-/
import DependencyAudit.AuditError
import DependencyAudit.FileSystem.Basic
import DependencyAudit.References.Basic

namespace DependencyAudit

set_option autoImplicit false

namespace ReferenceReport

/-- The name of the report that gives no classes. -/
def summaryName : String := "summary.dot"

/-- Where the report on the public surface lies. -/
def apiDirectory : Path := ⟨"api"⟩

/-- Whether a file is a detailed report. -/
def isDetailed (files : FileSystem) (path : Path) : Bool :=
  files.isFile path && path.extension? = some "dot" && path.fileName? ≠ some summaryName

/-- The detailed report in a directory. -/
def detailed? (files : FileSystem) (directory : Path) : Option Path := do
  let names ← files.names? directory
  (names.toList.map fun name => directory.join ⟨name⟩).find? (isDetailed files)

/-- The graph in a file. -/
def graphAt (files : FileSystem) (path : Path) : Except AuditError ReferenceGraph :=
  match files.readText? path with
  | none => .error (.unreadable path)
  | some text => (ReferenceGraph.ofText text).mapError (.graph path)

/-- The classes that the detailed report in a directory refers to. -/
def referencedIn (files : FileSystem) (directory : Path) : Except AuditError NameSet :=
  match detailed? files directory with
  | none => .ok .empty
  | some path => (graphAt files path).map ReferenceGraph.referenced

/-- The references that the reports in a directory give. -/
def ofDirectory (files : FileSystem) (directory : Path) : Except AuditError References := do
  let used ← referencedIn files directory
  let api ← referencedIn files (directory.join apiDirectory)
  return ⟨used, api⟩

/-! ## Facts -/

/-- Without reports there are no references. -/
theorem ofDirectory_of_missing {files : FileSystem} {directory : Path}
    (missing : detailed? files directory = none)
    (missing_api : detailed? files (directory.join apiDirectory) = none) :
    ofDirectory files directory = .ok ⟨.empty, .empty⟩ := by
  simp [ofDirectory, referencedIn, missing, missing_api, bind, Except.bind, pure, Except.pure]

end ReferenceReport

end DependencyAudit
