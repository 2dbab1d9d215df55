/-
# DependencyAudit.CommandLine.Help -- what the program says of itself

The texts that are printed when help or the version is asked for.
-/
import DependencyAudit.Report.Console

namespace DependencyAudit.CommandLine

set_option autoImplicit false

/-- The name that the program goes by. -/
def programName : String := "exactdeps"

/-- An option as it is typed, and what it does. -/
def optionHelp : List (String × String) :=
  [("  -m, --manifest <FILE>", "Resolution manifest written by the build (YAML, JSON or TOML)"),
    ("      --classes <PATH>",
      "Compiled output to analyze: classes directory, jar or single class file"),
    ("      --dot-dir <DIR>",
      "Directory of jdeps dot reports, with the API report under \x60api/\x60"),
    ("  -c, --config <CONFIG>", "Path to configuration file"),
    ("  -o, --output <OUTPUT>", "Where to write the YAML dependency report"),
    ("  -f, --format <FORMAT>", "Console output format [possible values: terminal, json, yaml]"),
    ("      --check", "Fail when implicit or unused dependencies are found"),
    ("      --cache <FILE>", "Artifact cache file reused across runs"),
    ("      --configuration <NAME>",
      "Configuration to validate (can be specified multiple times)"),
    ("      --classpath-configuration <NAME>", "Configuration whose artifacts are indexed"),
    ("      --ignore <GROUP:NAME>",
      "Dependencies never reported implicit or unused (can be specified multiple times)"),
    ("      --no-parallel", "Index artifacts and parse classes on a single thread"),
    ("  -v, --verbose", "Verbose output"), ("  -q, --quiet", "Quiet mode - only output errors"),
    ("  -h, --help", "Print help"), ("  -V, --version", "Print version")]

/-- The lines on one option. -/
def optionLines (entry : String × String) : String :=
  Report.line entry.1 ++ Report.line ("          " ++ entry.2)

def helpText : String :=
  Report.line ("A fast CLI tool to find unused and undeclared (implicit) JVM library " ++
      "dependencies from compiled classes") ++
    Report.line "" ++
    Report.line ("Usage: " ++ programName ++ " [OPTIONS] --manifest <FILE> [PATH]") ++
    Report.line "" ++
    Report.line "Arguments:" ++
    Report.line ("  [PATH]  Path to the project directory (config lookup and relative report " ++
      "paths) [default: .]") ++
    Report.line "" ++
    Report.line "Options:" ++
    String.join (optionHelp.map optionLines)

def versionText : String :=
  Report.line (programName ++ " " ++ Report.version)

end DependencyAudit.CommandLine
