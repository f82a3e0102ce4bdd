import ApiDescription.Diagnostic
import ApiDescription.FileTree
import ApiDescription.Log
import ApiDescription.Text.Blank
import ApiDescription.Text.LetterCase
import ApiDescription.Text.Quoted
import ApiDescription.Text.Utf8
import ApiDescription.Toml.Reader

/-!
# Settings

Settings come from a configuration file, which may be named or be found in the
working directory, and from the environment, whose log level wins over the file's.
Every key of the file may hold any value; each is checked before it is used.
-/

namespace ApiDescription

/-- The formats of the output. -/
inductive OutputFormat where
  | json | yaml
  deriving DecidableEq, Repr, Inhabited

/-- The format of a name. -/
def OutputFormat.ofName? (name : String) : Option OutputFormat :=
  if name = "json" then some .json else if name = "yaml" then some .yaml else none

/-- The settings in force. Output without indentation is compact. -/
structure Settings where
  format : OutputFormat := .json
  indent : Option Nat := some 2
  asciiOnly : Bool := false
  level : LogLevel := .warning
  source : Option Path := none
  deriving DecidableEq, Repr, Inhabited

/-- The rules of the configuration that can be broken. -/
inductive SettingsError where
  | missing (path : Path)
  | unreadable (path : Path) (error : FileError)
  | notToml (path : Path) (detail : String)
  | badIndent (path : Path)
  | unknownFormat (path : Path) (name : String)
  | unknownLevel (origin : String) (name : String)
  deriving DecidableEq, Repr

/-- What an error says. -/
def SettingsError.message : SettingsError → String
  | .missing path => "Config file not found: " ++ path.toString
  | .unreadable path error =>
    "Invalid config file " ++ path.toString ++ ": " ++ error.text path
  | .notToml path detail => "Invalid config file " ++ path.toString ++ ": " ++ detail
  | .badIndent path => path.toString ++ ": output.indent must be a non-negative integer"
  | .unknownFormat path name =>
    path.toString ++ ": unknown output.format " ++ Text.quoted name
  | .unknownLevel origin name => origin ++ ": unknown log level " ++ Text.quoted name

namespace Settings

/-- The result of a step of loading settings. -/
abbrev Result := Except (Failure SettingsError)

/-- Fails because a rule is broken. -/
def reject {α : Type} (error : SettingsError) : Result α := .error (.reported error)

/-- The variable of the environment that sets the log level. -/
def levelVariable : String := "ZEROAPI_LOG_LEVEL"

/-- The file that is looked for in the working directory. -/
def defaultFile (tree : FileTree) : Path := tree.homePath.join ⟨0, ["zeroapi.toml"]⟩

/-- The level of a name in any case, which comes from somewhere. -/
def levelOf (name origin : String) : Result LogLevel :=
  let upper := Text.toUpper name
  match LogLevel.ofName? upper with
  | some level => .ok level
  | none => reject (.unknownLevel origin upper)

/-- The entries of a section; a section that is absent has none. -/
def sectionOf (document : Toml.Entries) (name : String) : Result Toml.Entries :=
  match document.lookup name with
  | none => .ok []
  | some (.table entries) => .ok entries
  | some _ => .error (.broken .sectionNoTable)

/-- The value of a key of a section as text, or the default if the key is absent. -/
def shownValue (entries : Toml.Entries) (key default : String) : Result String :=
  match entries.lookup key with
  | none => .ok default
  | some value =>
    match value.display? with
    | some shown => .ok shown
    | none => .error (.broken .integerTooLong)

/-- The indentation that a section asks for. -/
def indentOf (path : Path) (output : Toml.Entries) : Result Nat :=
  match output.lookup "indent" with
  | none => .ok 2
  | some (.integer (.ofNat width)) => .ok width
  | some _ => reject (.badIndent path)

/-- Whether a key of a section counts as yes. -/
def isOn (entries : Toml.Entries) (key : String) : Bool :=
  (entries.lookup key).any Toml.isTruthy

/-- The format that a section asks for, by its name in any case. -/
def formatOf (path : Path) (output : Toml.Entries) : Result OutputFormat := do
  let name := Text.toLower (← shownValue output "format" "json")
  match OutputFormat.ofName? name with
  | some format => return format
  | none => reject (.unknownFormat path name)

/-- The settings of a configuration file. -/
def ofDocument (path : Path) (document : Toml.Entries) : Result Settings := do
  let output ← sectionOf document "output"
  let indent ← indentOf path output
  let format ← formatOf path output
  let logging ← sectionOf document "logging"
  let name ← shownValue logging "level" "WARNING"
  let level ← levelOf name (path.toString ++ ": logging.level")
  return {
    format
    indent := if isOn output "compact" then none else some indent
    asciiOnly := isOn output "ensure_ascii"
    level
    source := some path }

/-- The settings of the bytes of a configuration file. -/
def ofBytes (path : Path) (bytes : List UInt8) : Result Settings :=
  match Utf8.decode bytes with
  | .error _ => .error (.broken .undecodableConfig)
  | .ok text =>
    let lines := Text.withLineFeeds text
    match Toml.read lines with
    | .error (.malformed reason left) => reject (.notToml path (Toml.located lines reason left))
    | .error .tooManyDigits => .error (.broken .integerTooLong)
    | .ok document => ofDocument path document

/-- The settings of the configuration file: the named one, which has to exist, or the one
in the working directory, which may be absent. -/
def ofFile (tree : FileTree) (named : Option Path) : Result Settings :=
  let path := named.getD (defaultFile tree)
  match tree.find path with
  | .error cause => .error (.broken cause)
  | .ok (.bytes bytes) => ofBytes path bytes
  | .ok (.unreadable error) => reject (.unreadable path error)
  | .ok .nothing => if named.isSome then reject (.missing path) else .ok {}

/-- The settings in force: those of the file, with the log level of the environment if it
names one. -/
def load (tree : FileTree) (named : Option Path) (environment : Option String) :
    Result Settings := do
  let settings ← ofFile tree named
  let name := String.ofList (Text.trimChars (environment.getD "").toList)
  if name = "" then return settings
  return { settings with level := ← levelOf name levelVariable }

end Settings

end ApiDescription
