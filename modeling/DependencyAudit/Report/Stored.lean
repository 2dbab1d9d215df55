/-
# DependencyAudit.Report.Stored -- reports in files

A report is stored as YAML, one list after the other.  One that cannot be
written is an error (`save_of_unwritten`), and one that was written is there
(`store_of_saved`).
-/
import DependencyAudit.Document.OfYaml
import DependencyAudit.FileSystem.Change
import DependencyAudit.Report.Basic
import DependencyAudit.Yaml.Printer

namespace DependencyAudit.Report

set_option autoImplicit false

/-- The report as YAML. -/
def toYaml (report : Report) : List Char :=
  Yaml.Printer.listing requiredKey report.required.toList ++
    Yaml.Printer.listing apiRequiredKey report.apiRequired.toList ++
    Yaml.Printer.listing implicitKey report.implicit.toList ++
    Yaml.Printer.listing unusedKey report.unused.toList

/-- The report in a YAML text. -/
def ofYaml? (text : List Char) : Option Report :=
  (Document.ofYamlText text).bind (·.decode ofDocument)

/-- The report in a file. -/
def load (files : FileSystem) (path : Path) : Except AuditError Report :=
  match (files.readText? path).bind ofYaml? with
  | some report => .ok report
  | none => .error (.reportRead path)

/-- Stores a report; the files after it, and whether it is stored. -/
def save (report : Report) (files : FileSystem) (path : Path) :
    FileSystem × Except AuditError Unit :=
  let (changed, written) := files.store path (Text.Utf8.encode report.toYaml)
  (changed, if written then .ok () else .error (.reportWrite path))

/-! ## Facts -/

theorem save_of_unwritten {report : Report} {files : FileSystem} {path : Path}
    (unwritten : (files.store path (Text.Utf8.encode report.toYaml)).2 = false) :
    (report.save files path).2 = .error (.reportWrite path) := by
  simp [save, unwritten]

theorem store_of_saved {report : Report} {files saved : FileSystem} {path : Path}
    (stored : report.save files path = (saved, .ok ())) :
    files.store path (Text.Utf8.encode report.toYaml) = (saved, true) := by
  rcases outcome : files.store path (Text.Utf8.encode report.toYaml) with ⟨changed, done⟩
  cases done <;> simp_all [save]

end DependencyAudit.Report
