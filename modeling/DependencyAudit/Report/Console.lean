/-
# DependencyAudit.Report.Console -- reports as they are printed

A report is printed for readers, as JSON or as YAML; capital letters do not matter in
the name of a format (`ofName?_lower`).  The text for readers leaves out empty lists,
and says so if there are no findings.
-/
import DependencyAudit.Json.Printer
import DependencyAudit.Path
import DependencyAudit.Report.Paint
import DependencyAudit.Report.Stored

namespace DependencyAudit

set_option autoImplicit false

/-- The formats that reports are printed in. -/
inductive ReportFormat where
  | terminal
  | json
  | yaml
deriving Repr, DecidableEq

namespace ReportFormat

/-- The format of a name, capital letters not being told from small ones. -/
def ofName? (name : String) : Option ReportFormat :=
  let name := Path.asciiLower name
  if name = "terminal" then some .terminal
  else if name = "json" then some .json
  else if name = "yaml" ∨ name = "yml" then some .yaml
  else none

/-- The name of a format in settings. -/
def name : ReportFormat → String
  | .terminal => "terminal"
  | .json => "json"
  | .yaml => "yaml"

/-- A name and its lower case mean one format. -/
theorem ofName?_lower (format : ReportFormat) : ofName? format.name = some format := by
  cases format <;> decide

end ReportFormat

/-- How a report is printed. -/
structure Presentation where
  format : ReportFormat
  /-- Whether build-file lines are suggested. -/
  suggestions : Bool
  colored : Bool
deriving Repr, DecidableEq

namespace Report

/-! ## Text for readers -/

/-- The end of a line. -/
def line (text : String) : String :=
  text ++ "\n"

/-- A list under its title, unless it is empty. -/
def titled (colored : Bool) (title : String) (names : NameSet) : String :=
  if names.isEmpty then ""
  else
    line (Paint.boldCyan.apply colored (title ++ " (" ++ toString names.size ++ "):")) ++
      String.join (names.toList.map fun name => line ("  " ++ name)) ++ line ""

/-- A finding, with the line that mends it. -/
def finding (presentation : Presentation) (paint : Paint) (sign advice dependency : String) :
    String :=
  line ("  " ++ paint.apply presentation.colored sign ++ " " ++ dependency) ++
    if presentation.suggestions then
      line ("      " ++
        Paint.dimmed.apply presentation.colored (advice ++ Dependency.suggestion dependency))
    else ""

/-- Findings of one kind under their title, unless there are none. -/
def findings (presentation : Presentation) (paint : Paint) (kind sign advice : String)
    (names : NameSet) : String :=
  if names.isEmpty then ""
  else
    line (paint.apply presentation.colored
        ("Found " ++ toString names.size ++ " " ++ kind ++ ":")) ++
      String.join (names.toList.map (finding presentation paint sign advice)) ++ line ""

/-- The sizes of the lists. -/
def summary (colored : Bool) (report : Report) : String :=
  line (Paint.bold.apply colored "Summary:") ++
    line ("  " ++ Paint.cyan.apply colored (toString report.required.size) ++ " required, " ++
      Paint.cyan.apply colored (toString report.apiRequired.size) ++ " api, " ++
      Paint.yellow.apply colored (toString report.implicit.size) ++ " implicit, " ++
      Paint.red.apply colored (toString report.unused.size) ++ " unused")

/-- The report for readers. -/
def terminal (presentation : Presentation) (report : Report) : String :=
  let colored := presentation.colored
  line "" ++ titled colored "Required dependencies" report.required ++
    titled colored "API dependencies" report.apiRequired ++
    (if report.hasFindings then
      findings presentation .boldYellow "implicit dependencies (used but not declared)" "+" ""
          report.implicit ++
        findings presentation .boldRed "unused dependencies (declared but not used)" "-" "remove: "
          report.unused
    else
      line (Paint.boldGreen.apply colored "All dependencies are declared and used!") ++ line "") ++
    summary colored report

/-! ## JSON -/

/-- The version that reports carry. -/
def version : String := "0.4.0"

/-- The report as JSON, with the lines that mend undeclared use. -/
def toJson (report : Report) : Json :=
  .object [("version", .string version), (requiredKey, .ofTexts report.required.toList),
    (apiRequiredKey, .ofTexts report.apiRequired.toList),
    (implicitKey, .ofTexts report.implicit.toList), (unusedKey, .ofTexts report.unused.toList),
    ("suggestions", .ofTexts (report.implicit.toList.map Dependency.suggestion)),
    ("summary", .object [("required", .ofNat report.required.size),
      ("api", .ofNat report.apiRequired.size), ("implicit", .ofNat report.implicit.size),
      ("unused", .ofNat report.unused.size)])]

/-- The report in a format. -/
def print (presentation : Presentation) (report : Report) : String :=
  match presentation.format with
  | .terminal => report.terminal presentation
  | .json => line report.toJson.pretty
  | .yaml => String.ofList report.toYaml

end Report

end DependencyAudit
