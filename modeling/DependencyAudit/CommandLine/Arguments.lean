/-
# DependencyAudit.CommandLine.Arguments -- what a command line asks for

A command line names options, in full after two hyphens or by one letter after one,
and at most one project.  Letters can be joined, and the value of an option follows
it, after an equals sign or as the next word.  After a lone pair of hyphens no word
names an option.

`read` gathers what is given, word by word; `Arguments.ofWords` then asks for what
must be there.  A word that asks for help or for the version ends the reading, and so
does the first misuse.
-/
import DependencyAudit.Path
import DependencyAudit.Report.Console
import DependencyAudit.Text.Split

namespace DependencyAudit.CommandLine

open DependencyAudit.Text

set_option autoImplicit false

/-! ## Options -/

/-- Options that take a value. -/
inductive Setting where
  | manifest
  | classes
  | dotDirectory
  | settingsFile
  | output
  | format
  | cache
  | configuration
  | classpathConfiguration
  | ignore
deriving Repr, DecidableEq

/-- Options without a value. -/
inductive Switch where
  | check
  | sequential
  | verbose
  | quiet
deriving Repr, DecidableEq

/-- What a name on the command line stands for. -/
inductive Named where
  | setting (setting : Setting)
  | switch (switch : Switch)
  | help
  | version
deriving Repr, DecidableEq

/-- The full names. -/
def fullNames : List (String × Named) :=
  [("manifest", .setting .manifest), ("classes", .setting .classes),
    ("dot-dir", .setting .dotDirectory), ("config", .setting .settingsFile),
    ("output", .setting .output), ("format", .setting .format), ("check", .switch .check),
    ("cache", .setting .cache), ("configuration", .setting .configuration),
    ("classpath-configuration", .setting .classpathConfiguration), ("ignore", .setting .ignore),
    ("no-parallel", .switch .sequential), ("verbose", .switch .verbose), ("quiet", .switch .quiet),
    ("help", .help), ("version", .version)]

/-- The letters. -/
def letters : List (Char × Named) :=
  [('m', .setting .manifest), ('c', .setting .settingsFile), ('o', .setting .output),
    ('f', .setting .format), ('v', .switch .verbose), ('q', .switch .quiet), ('h', .help),
    ('V', .version)]

namespace Setting

/-- Whether a setting may be given several times. -/
def isRepeatable : Setting → Bool
  | .configuration => true
  | .ignore => true
  | _ => false

/-- The formats by their exact names. -/
def format? (value : String) : Option ReportFormat :=
  [ReportFormat.terminal, .json, .yaml].find? (·.name = value)

/-- Whether a setting can have a value: paths are not empty, and formats are
known. -/
def accepts : Setting → String → Bool
  | .format, value => (format? value).isSome
  | .configuration, _ => true
  | .classpathConfiguration, _ => true
  | .ignore, _ => true
  | _, value => value ≠ ""

end Setting

/-! ## Reading -/

/-- Why reading ends before the last word. -/
inductive Stop where
  | help
  | version
  | misuse
deriving Repr, DecidableEq

/-- What has been given so far. -/
structure Given where
  settings : List (Setting × String)
  switches : List Switch
  project : Option String
deriving Repr, DecidableEq

namespace Given

def nothing : Given := ⟨[], [], none⟩

/-- The last value of a setting. -/
def value? (given : Given) (setting : Setting) : Option String :=
  (given.settings.filter (·.1 = setting)).getLast?.map Prod.snd

/-- All values of a setting, in order. -/
def values (given : Given) (setting : Setting) : List String :=
  (given.settings.filter (·.1 = setting)).map Prod.snd

def has (given : Given) (switch : Switch) : Bool :=
  given.switches.contains switch

/-- Adds a value. -/
def set (given : Given) (setting : Setting) (value : String) : Except Stop Given :=
  if (!setting.isRepeatable && (given.value? setting).isSome) || !setting.accepts value then
    .error .misuse
  else .ok { given with settings := given.settings ++ [(setting, value)] }

/-- Adds a switch. -/
def turn (given : Given) (switch : Switch) : Except Stop Given :=
  if given.has switch then .error .misuse
  else .ok { given with switches := given.switches ++ [switch] }

/-- Adds the project. -/
def addProject (given : Given) (path : String) : Except Stop Given :=
  if given.project.isSome || path = "" then .error .misuse
  else .ok { given with project := some path }

end Given

/-- Whether a word names options. -/
def isNaming (word : String) : Bool :=
  word.toList.head? = some '-' && word ≠ "-"

/-- Reads a full name with what is joined to it; the setting whose value is still to
come. -/
def readFull (given : Given) (cs : List Char) : Except Stop (Given × Option Setting) :=
  let (name, value) := match cutAt? '=' cs with
    | some (name, value) => (name, some (String.ofList value))
    | none => (cs, none)
  match fullNames.lookup (String.ofList name), value with
  | some (.setting setting), some value => (given.set setting value).map fun set => (set, none)
  | some (.setting setting), none => .ok (given, some setting)
  | some (.switch switch), none => (given.turn switch).map fun turned => (turned, none)
  | some .help, none => .error .help
  | some .version, none => .error .version
  | _, _ => .error .misuse

/-- Reads joined letters; the rest of the word after the letter of a setting is its
value. -/
def readLetters : Given → List Char → Except Stop (Given × Option Setting)
  | given, [] => .ok (given, none)
  | given, letter :: rest =>
      match letters.lookup letter with
      | some (.setting setting) =>
          if rest.isEmpty then .ok (given, some setting)
          else
            let value := if rest.head? = some '=' then rest.drop 1 else rest
            (given.set setting (String.ofList value)).map fun set => (set, none)
      | some (.switch switch) =>
          match given.turn switch with
          | .error stop => .error stop
          | .ok turned => readLetters turned rest
      | some .help => .error .help
      | some .version => .error .version
      | none => .error .misuse

/-- Reads a word that names options. -/
def readNaming (given : Given) (word : String) : Except Stop (Given × Option Setting) :=
  match word.toList with
  | '-' :: '-' :: rest => readFull given rest
  | '-' :: rest => readLetters given rest
  | _ => .error .misuse

/-- Reads all words. -/
def read : Given → List String → Except Stop Given
  | given, [] => .ok given
  | given, word :: rest =>
      if word = "--" then rest.foldlM Given.addProject given
      else if isNaming word then
        match readNaming given word with
        | .error stop => .error stop
        | .ok (next, none) => read next rest
        | .ok (next, some setting) =>
            match rest with
            | [] => .error .misuse
            | value :: after =>
                if isNaming value then .error .misuse
                else match next.set setting value with
                  | .error stop => .error stop
                  | .ok set => read set after
      else match given.addProject word with
        | .error stop => .error stop
        | .ok next => read next rest
termination_by _ words => words.length

/-! ## Arguments -/

/-- Where references are read from. -/
inductive CodeSource where
  /-- Compiled classes. -/
  | classes (path : Path)
  /-- A directory of graph reports. -/
  | reports (directory : Path)
deriving Repr, DecidableEq

/-- What an audit is asked for. -/
structure Arguments where
  project : Path
  manifest : Path
  source : CodeSource
  settingsFile : Option Path
  output : Option Path
  format : Option ReportFormat
  check : Bool
  cache : Option Path
  configurations : List String
  classpathConfiguration : Option String
  ignore : List String
  sequential : Bool
  verbose : Bool
  quiet : Bool
deriving Repr, DecidableEq

namespace Arguments

/-- The one source that is given. -/
def sourceOf (given : Given) : Except Stop CodeSource :=
  match given.value? .classes, given.value? .dotDirectory with
  | some path, none => .ok (.classes ⟨path⟩)
  | none, some directory => .ok (.reports ⟨directory⟩)
  | _, _ => .error .misuse

/-- The arguments that are given, if nothing is missing. -/
def ofGiven (given : Given) : Except Stop Arguments := do
  let manifest ← (given.value? .manifest).elim (.error .misuse) .ok
  return {
    project := ⟨given.project.getD "."⟩
    manifest := ⟨manifest⟩
    source := ← sourceOf given
    settingsFile := (given.value? .settingsFile).map Path.mk
    output := (given.value? .output).map Path.mk
    format := (given.value? .format).bind Setting.format?
    check := given.has .check
    cache := (given.value? .cache).map Path.mk
    configurations := given.values .configuration
    classpathConfiguration := given.value? .classpathConfiguration
    ignore := given.values .ignore
    sequential := given.has .sequential
    verbose := given.has .verbose
    quiet := given.has .quiet }

/-- The arguments of a command line. -/
def ofWords (words : List String) : Except Stop Arguments :=
  (read .nothing words).bind ofGiven

end Arguments

/-! ## Facts -/

theorem read_nil (given : Given) : read given [] = .ok given := by
  rw [read]

end DependencyAudit.CommandLine
