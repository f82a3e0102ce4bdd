import ApiDescription.Proofs.Input
import ApiDescription.Settings

/-!
# How settings load

A configuration file is untyped: any of its keys may hold any value, and the file itself need
not be TOML, or text at all. Loading settings ends in one of three ways, and for each of them it
is said here what has to be found in the file and in the environment.

Settings are given, or a rule is reported as broken; and there are files for which neither is the
case. A file that is not UTF-8, a section that is no table, an integer that is too long and a path
that cannot be looked up are found by no check: loading breaks down on them.
-/

namespace ApiDescription

/-- The name of a format. -/
def OutputFormat.name : OutputFormat → String
  | .json => "json"
  | .yaml => "yaml"

/-- A format is found by its name and by no other. -/
theorem OutputFormat.ofName?_eq_some_iff {name : String} {format : OutputFormat} :
    ofName? name = some format ↔ format.name = name := by
  unfold ofName?
  split
  · next isJson => cases format <;> simp [OutputFormat.name, isJson]
  · next notJson =>
    split
    · next isYaml => cases format <;> simp [OutputFormat.name, isYaml]
    · next notYaml => cases format <;> simp [OutputFormat.name, Ne.symm notJson, Ne.symm notYaml]

/-- A level is found by its name and by no other. -/
theorem LogLevel.ofName?_eq_some_iff {name : String} {level : LogLevel} :
    ofName? name = some level ↔ level.name = name := by
  constructor
  · intro found
    simpa using List.find?_some found
  · rintro rfl
    cases level <;> decide

namespace Settings

section Checks

variable {α β : Type} {entries : Toml.Entries} {key : String}

/-- Two steps in turn give what the second makes of what the first gives. -/
theorem bind_eq_ok_iff {first : Result α} {second : α → Result β} {given : β} :
    first >>= second = .ok given ↔ ∃ value, first = .ok value ∧ second value = .ok given := by
  cases first <;> simp [bind, Except.bind]

/-- Two steps in turn fail as the first one does, or as the second does on what the first gives. -/
theorem bind_eq_error_iff {first : Result α} {second : α → Result β}
    {failure : Failure SettingsError} :
    first >>= second = .error failure ↔
      first = .error failure ∨ ∃ value, first = .ok value ∧ second value = .error failure := by
  cases first <;> simp [bind, Except.bind]

/-- What a key holds, as a check reads its value, or a default if the key is absent. -/
def Has (entries : Toml.Entries) (key : String) (check : Toml → Option α) (default found : α) :
    Prop :=
  entries.lookup key = none ∧ found = default ∨
    ∃ value, entries.lookup key = some value ∧ check value = some found

/-- A key holds a value that a check does not accept. -/
def Lacks (entries : Toml.Entries) (key : String) (check : Toml → Option α) : Prop :=
  ∃ value, entries.lookup key = some value ∧ check value = none

/-- The value of a key through a check that fails in one way. -/
def checked (entries : Toml.Entries) (key : String) (check : Toml → Option α) (default : α)
    (failure : Failure SettingsError) : Result α :=
  match entries.lookup key with
  | none => .ok default
  | some value =>
    match check value with
    | some found => .ok found
    | none => .error failure

variable {check : Toml → Option α} {default found : α} {failure other : Failure SettingsError}

theorem checked_eq_ok_iff :
    checked entries key check default failure = .ok found ↔
      Has entries key check default found := by
  unfold checked Has
  cases entries.lookup key with
  | none => simp [eq_comm]
  | some value => cases checkedValue : check value <;> simp [checkedValue]

theorem checked_eq_error_iff :
    checked entries key check default failure = .error other ↔
      Lacks entries key check ∧ other = failure := by
  unfold checked Lacks
  cases entries.lookup key with
  | none => simp
  | some value => cases checkedValue : check value <;> simp [checkedValue, eq_comm]

/-- The entries of a table. -/
def table? : Toml → Option Toml.Entries
  | .table entries => some entries
  | _ => none

/-- An integer that is not negative. -/
def width? : Toml → Option Nat
  | .integer (.ofNat width) => some width
  | _ => none

theorem sectionOf_eq (document : Toml.Entries) (name : String) :
    sectionOf document name = checked document name table? [] (.broken .sectionNoTable) := by
  unfold sectionOf checked
  cases document.lookup name with
  | none => rfl
  | some value => cases value <;> rfl

theorem indentOf_eq (path : Path) (output : Toml.Entries) :
    indentOf path output = checked output "indent" width? 2 (.reported (.badIndent path)) := by
  unfold indentOf checked
  cases output.lookup "indent" with
  | none => rfl
  | some value =>
    cases value with
    | integer value => cases value <;> rfl
    | _ => rfl

theorem shownValue_eq (entries : Toml.Entries) (key default : String) :
    shownValue entries key default =
      checked entries key Toml.display? default (.broken .integerTooLong) := by
  unfold shownValue checked
  cases entries.lookup key with
  | none => rfl
  | some value =>
    dsimp only
    cases value.display? <;> rfl

end Checks

section Document

variable {path : Path} {document output logging : Toml.Entries} {width : Nat}
  {format : OutputFormat} {shown : String} {settings : Settings} {failure : Failure SettingsError}

/-- What a document asks for in its output section, with the defaults for what is absent. The name
of the format counts in any case. -/
structure AsksOutput (document output : Toml.Entries) (width : Nat) (format : OutputFormat) :
    Prop where
  isSection : Has document "output" table? [] output
  indent : Has output "indent" width? 2 width
  format : ∃ shown, Has output "format" Toml.display? "json" shown ∧
    format.name = Text.toLower shown

/-- The name of the level that a document asks for, with the default if it is absent. -/
def AsksLevel (document : Toml.Entries) (shown : String) : Prop :=
  ∃ logging, Has document "logging" table? [] logging ∧
    Has logging "level" Toml.display? "WARNING" shown

/-- The settings that a document of a configuration file asks for. Compact output needs no width,
but a width that is there has to be one. -/
structure DocumentGives (path : Path) (document : Toml.Entries) (settings : Settings) : Prop where
  output : ∃ output width, AsksOutput document output width settings.format ∧
    settings.indent = (if isOn output "compact" then none else some width) ∧
    settings.asciiOnly = isOn output "ensure_ascii"
  level : ∃ shown, AsksLevel document shown ∧ settings.level.name = Text.toUpper shown
  source : settings.source = some path

/-- The rule that a document of a configuration file breaks. -/
inductive DocumentRefused (path : Path) (document : Toml.Entries) : SettingsError → Prop where
  | indent {output : Toml.Entries} (isSection : Has document "output" table? [] output)
    (noWidth : Lacks output "indent" width?) : DocumentRefused path document (.badIndent path)
  | format {output : Toml.Entries} {width : Nat} {shown : String}
    (isSection : Has document "output" table? [] output)
    (indent : Has output "indent" width? 2 width)
    (isShown : Has output "format" Toml.display? "json" shown)
    (unknown : ∀ format : OutputFormat, format.name ≠ Text.toLower shown) :
    DocumentRefused path document (.unknownFormat path (Text.toLower shown))
  | level {output : Toml.Entries} {width : Nat} {format : OutputFormat} {shown : String}
    (asks : AsksOutput document output width format) (isShown : AsksLevel document shown)
    (unknown : ∀ level : LogLevel, level.name ≠ Text.toUpper shown) :
    DocumentRefused path document
      (.unknownLevel (path.toString ++ ": logging.level") (Text.toUpper shown))

/-- What is wrong with a document of a configuration file and found by no check. -/
inductive DocumentBreaks (document : Toml.Entries) : Breakdown → Prop where
  | output (noTable : Lacks document "output" table?) : DocumentBreaks document .sectionNoTable
  | format {output : Toml.Entries} {width : Nat}
    (isSection : Has document "output" table? [] output)
    (indent : Has output "indent" width? 2 width) (tooLong : Lacks output "format" Toml.display?) :
    DocumentBreaks document .integerTooLong
  | logging {output : Toml.Entries} {width : Nat} {format : OutputFormat}
    (asks : AsksOutput document output width format) (noTable : Lacks document "logging" table?) :
    DocumentBreaks document .sectionNoTable
  | level {output logging : Toml.Entries} {width : Nat} {format : OutputFormat}
    (asks : AsksOutput document output width format)
    (isSection : Has document "logging" table? [] logging)
    (tooLong : Lacks logging "level" Toml.display?) : DocumentBreaks document .integerTooLong

/-- A level is found by its name in any case. -/
theorem levelOf_eq_ok_iff {name origin : String} {level : LogLevel} :
    levelOf name origin = .ok level ↔ level.name = Text.toUpper name := by
  rw [← LogLevel.ofName?_eq_some_iff, levelOf]
  cases LogLevel.ofName? (Text.toUpper name) <;> simp [reject]

/-- A name of no level is reported. -/
theorem levelOf_eq_error_iff {name origin : String} :
    levelOf name origin = .error failure ↔
      (∀ level : LogLevel, level.name ≠ Text.toUpper name) ∧
        failure = .reported (.unknownLevel origin (Text.toUpper name)) := by
  simp only [← LogLevel.ofName?_eq_some_iff, ne_eq, levelOf]
  cases LogLevel.ofName? (Text.toUpper name) <;> simp [reject, eq_comm]

/-- A format is found by its name in any case. -/
theorem formatOf_eq_ok_iff :
    formatOf path output = .ok format ↔
      ∃ shown, Has output "format" Toml.display? "json" shown ∧
        format.name = Text.toLower shown := by
  simp only [formatOf, bind_eq_ok_iff, shownValue_eq, checked_eq_ok_iff]
  refine exists_congr fun shown => and_congr_right fun _ => ?_
  rw [← OutputFormat.ofName?_eq_some_iff]
  cases OutputFormat.ofName? (Text.toLower shown) <;> simp [reject, pure, Except.pure]

/-- A format with too long a name is not looked for; a name of no format is reported. -/
theorem formatOf_eq_error_iff :
    formatOf path output = .error failure ↔
      (Lacks output "format" Toml.display? ∧ failure = .broken .integerTooLong) ∨
      ∃ shown, Has output "format" Toml.display? "json" shown ∧
        (∀ format : OutputFormat, format.name ≠ Text.toLower shown) ∧
        failure = .reported (.unknownFormat path (Text.toLower shown)) := by
  simp only [formatOf, bind_eq_error_iff, shownValue_eq, checked_eq_ok_iff, checked_eq_error_iff]
  refine or_congr_right (exists_congr fun shown => and_congr_right fun _ => ?_)
  simp only [← OutputFormat.ofName?_eq_some_iff, ne_eq]
  cases OutputFormat.ofName? (Text.toLower shown) <;> simp [reject, pure, Except.pure, eq_comm]

/-- The settings of a document are those it asks for. -/
theorem ofDocument_eq_ok_iff :
    ofDocument path document = .ok settings ↔ DocumentGives path document settings := by
  simp only [ofDocument, bind_eq_ok_iff, sectionOf_eq, indentOf_eq, shownValue_eq,
    checked_eq_ok_iff, formatOf_eq_ok_iff, levelOf_eq_ok_iff]
  constructor
  · rintro ⟨output, isSection, width, indent, format, shownFormat, logging, isLogging, shown,
      isShown, level, named, given⟩
    cases given
    exact ⟨⟨output, width, ⟨isSection, indent, shownFormat⟩, rfl, rfl⟩,
      ⟨shown, ⟨logging, isLogging, isShown⟩, named⟩, rfl⟩
  · rintro ⟨⟨output, width, ⟨isSection, indent, shownFormat⟩, indentGiven, asciiGiven⟩,
      ⟨shown, ⟨logging, isLogging, isShown⟩, named⟩, source⟩
    refine ⟨output, isSection, width, indent, settings.format, shownFormat, logging, isLogging,
      shown, isShown, settings.level, named, ?_⟩
    rw [← indentGiven, ← asciiGiven, ← source]
    rfl

/-- A document is refused for the rules it breaks, and breaks loading down where no rule is. -/
theorem ofDocument_eq_error_iff :
    ofDocument path document = .error failure ↔
      (∃ error, DocumentRefused path document error ∧ failure = .reported error) ∨
      ∃ cause, DocumentBreaks document cause ∧ failure = .broken cause := by
  simp only [ofDocument, bind_eq_error_iff, sectionOf_eq, indentOf_eq, shownValue_eq,
    checked_eq_ok_iff, checked_eq_error_iff, formatOf_eq_ok_iff, formatOf_eq_error_iff,
    levelOf_eq_ok_iff, levelOf_eq_error_iff]
  constructor
  · rintro (⟨noTable, rfl⟩ | ⟨output, isSection, ⟨noWidth, rfl⟩ | ⟨width, indent,
      (⟨tooLong, rfl⟩ | ⟨shown, isShown, unknown, rfl⟩) | ⟨format, shownFormat,
      ⟨noTable, rfl⟩ | ⟨logging, isLogging, ⟨tooLong, rfl⟩ | ⟨shown, isShown,
      ⟨unknown, rfl⟩ | ⟨level, named, given⟩⟩⟩⟩⟩⟩)
    · exact .inr ⟨_, .output noTable, rfl⟩
    · exact .inl ⟨_, .indent isSection noWidth, rfl⟩
    · exact .inr ⟨_, .format isSection indent tooLong, rfl⟩
    · exact .inl ⟨_, .format isSection indent isShown unknown, rfl⟩
    · exact .inr ⟨_, .logging ⟨isSection, indent, shownFormat⟩ noTable, rfl⟩
    · exact .inr ⟨_, .level ⟨isSection, indent, shownFormat⟩ isLogging tooLong, rfl⟩
    · exact .inl ⟨_, .level ⟨isSection, indent, shownFormat⟩ ⟨logging, isLogging, isShown⟩ unknown,
        rfl⟩
    · cases given
  · rintro (⟨_, refused, rfl⟩ | ⟨_, breaks, rfl⟩)
    · cases refused with
      | indent isSection noWidth => exact .inr ⟨_, isSection, .inl ⟨noWidth, rfl⟩⟩
      | format isSection indent isShown unknown =>
        exact .inr ⟨_, isSection, .inr ⟨_, indent, .inl (.inr ⟨_, isShown, unknown, rfl⟩)⟩⟩
      | level asks isShown unknown =>
        obtain ⟨logging, isLogging, isShown⟩ := isShown
        exact .inr ⟨_, asks.isSection, .inr ⟨_, asks.indent, .inr ⟨_, asks.format,
          .inr ⟨logging, isLogging, .inr ⟨_, isShown, .inl ⟨unknown, rfl⟩⟩⟩⟩⟩⟩
    · cases breaks with
      | output noTable => exact .inl ⟨noTable, rfl⟩
      | format isSection indent tooLong =>
        exact .inr ⟨_, isSection, .inr ⟨_, indent, .inl (.inl ⟨tooLong, rfl⟩)⟩⟩
      | logging asks noTable =>
        exact .inr ⟨_, asks.isSection, .inr ⟨_, asks.indent, .inr ⟨_, asks.format,
          .inl ⟨noTable, rfl⟩⟩⟩⟩
      | level asks isSection tooLong =>
        exact .inr ⟨_, asks.isSection, .inr ⟨_, asks.indent, .inr ⟨_, asks.format,
          .inr ⟨_, isSection, .inl ⟨tooLong, rfl⟩⟩⟩⟩⟩

end Document

section File

variable (tree : FileTree) (named : Option Path) (environment : Option String)

/-- The path that is looked up: the one that is named, or that in the working directory. -/
def pathOf : Path := named.getD (defaultFile tree)

/-- The file of the configuration is UTF-8 and TOML. -/
def Holds (document : Toml.Entries) : Prop :=
  ∃ bytes text, tree.find (pathOf tree named) = .ok (.bytes bytes) ∧ Utf8.decode bytes = .ok text ∧
    Toml.read (Text.withLineFeeds text) = .ok document

/-- The settings of the configuration file, or those without one if none is named or found. -/
inductive FileGives : Settings → Prop where
  | absent (unnamed : named = none) (noFile : tree.find (pathOf tree named) = .ok .nothing) :
    FileGives {}
  | document {document : Toml.Entries} {settings : Settings} (holds : Holds tree named document)
    (gives : DocumentGives (pathOf tree named) document settings) : FileGives settings

/-- The rule that is broken by the configuration file. -/
inductive FileRefused : SettingsError → Prop where
  | missing {path : Path} (isNamed : named = some path)
    (noFile : tree.find (pathOf tree named) = .ok .nothing) : FileRefused (.missing path)
  | unreadable {error : FileError}
    (found : tree.find (pathOf tree named) = .ok (.unreadable error)) :
    FileRefused (.unreadable (pathOf tree named) error)
  | notToml {bytes : List UInt8} {text : List Char} {reason : String} {left : Nat}
    (found : tree.find (pathOf tree named) = .ok (.bytes bytes))
    (decoded : Utf8.decode bytes = .ok text)
    (malformed : Toml.read (Text.withLineFeeds text) = .error (.malformed reason left)) :
    FileRefused (.notToml (pathOf tree named)
      (Toml.located (Text.withLineFeeds text) reason left))
  | document {document : Toml.Entries} {error : SettingsError} (holds : Holds tree named document)
    (refused : DocumentRefused (pathOf tree named) document error) : FileRefused error

/-- Why loading settings breaks down: what is wrong with the path or the file is found by no check.
The environment has no part in it. -/
inductive Breaks : Breakdown → Prop where
  | path {error : OsError} (refused : tree.locate (pathOf tree named) = .refused error)
    (present : error.meansAbsent = false) : Breaks (.notLookedUp error)
  | bytes {bytes : List UInt8} {fault : Utf8.Fault}
    (found : tree.find (pathOf tree named) = .ok (.bytes bytes))
    (undecodable : Utf8.decode bytes = .error fault) : Breaks .undecodableConfig
  | integer {bytes : List UInt8} {text : List Char}
    (found : tree.find (pathOf tree named) = .ok (.bytes bytes))
    (decoded : Utf8.decode bytes = .ok text)
    (tooLong : Toml.read (Text.withLineFeeds text) = .error .tooManyDigits) : Breaks .integerTooLong
  | document {document : Toml.Entries} {cause : Breakdown} (holds : Holds tree named document)
    (breaks : DocumentBreaks document cause) : Breaks cause

/-- The name of a level in the environment, without blanks around it. -/
def environmentLevel : String := String.ofList (Text.trimChars (environment.getD "").toList)

/-- The settings in force: those of the file, with the level of the environment if it names one. -/
inductive Gives : Settings → Prop where
  | file {settings : Settings} (gives : FileGives tree named settings)
    (noLevel : environmentLevel environment = "") : Gives settings
  | environment {settings : Settings} {level : LogLevel} (gives : FileGives tree named settings)
    (isLevel : environmentLevel environment ≠ "")
    (name : level.name = Text.toUpper (environmentLevel environment)) :
    Gives { settings with level }

/-- The rule that is broken by the configuration file or, if it breaks none, by the environment. -/
inductive Refused : SettingsError → Prop where
  | file {error : SettingsError} (refused : FileRefused tree named error) : Refused error
  | environment {settings : Settings} (gives : FileGives tree named settings)
    (isLevel : environmentLevel environment ≠ "")
    (unknown : ∀ level : LogLevel, level.name ≠ Text.toUpper (environmentLevel environment)) :
    Refused (.unknownLevel levelVariable (Text.toUpper (environmentLevel environment)))

end File

variable {tree : FileTree} {named : Option Path} {settings : Settings}
  {failure : Failure SettingsError}

/-- The bytes of a file give the settings of the document they hold. -/
theorem ofBytes_eq_ok_iff {path : Path} {bytes : List UInt8} :
    ofBytes path bytes = .ok settings ↔
      ∃ text document, Utf8.decode bytes = .ok text ∧
        Toml.read (Text.withLineFeeds text) = .ok document ∧
        DocumentGives path document settings := by
  unfold ofBytes
  cases decoded : Utf8.decode bytes with
  | error fault => simp
  | ok text =>
    match read : Toml.read (Text.withLineFeeds text) with
    | .error (.malformed reason left) => simp [read, reject]
    | .error .tooManyDigits => simp [read]
    | .ok document => simp [read, ofDocument_eq_ok_iff]

/-- The bytes of a file fail for what they are, or for the document they hold. -/
theorem ofBytes_eq_error_iff {path : Path} {bytes : List UInt8} :
    ofBytes path bytes = .error failure ↔
      (∃ fault, Utf8.decode bytes = .error fault ∧ failure = .broken .undecodableConfig) ∨
      ∃ text, Utf8.decode bytes = .ok text ∧
        ((∃ reason left, Toml.read (Text.withLineFeeds text) = .error (.malformed reason left) ∧
            failure = .reported
              (.notToml path (Toml.located (Text.withLineFeeds text) reason left))) ∨
          (Toml.read (Text.withLineFeeds text) = .error .tooManyDigits ∧
            failure = .broken .integerTooLong) ∨
          ∃ document, Toml.read (Text.withLineFeeds text) = .ok document ∧
            ofDocument path document = .error failure) := by
  unfold ofBytes
  cases decoded : Utf8.decode bytes with
  | error fault => simp [eq_comm]
  | ok text =>
    match read : Toml.read (Text.withLineFeeds text) with
    | .error (.malformed reason left) => simp [read, reject, eq_comm]
    | .error .tooManyDigits => simp [read, eq_comm]
    | .ok document => simp [read]

/-- A configuration file gives the settings of its document, and none may be found only where none
is named. -/
theorem ofFile_eq_ok_iff : ofFile tree named = .ok settings ↔ FileGives tree named settings := by
  rw [ofFile, ← pathOf]
  constructor
  · intro loaded
    match found : tree.find (pathOf tree named) with
    | .error cause | .ok (.unreadable error) => simp [found, reject] at loaded
    | .ok (.bytes bytes) =>
      simp only [found, ofBytes_eq_ok_iff] at loaded
      obtain ⟨text, document, decoded, read, gives⟩ := loaded
      exact .document ⟨bytes, text, found, decoded, read⟩ gives
    | .ok .nothing =>
      cases named with
      | none =>
        simp only [found, Option.isSome_none, Bool.false_eq_true, if_false] at loaded
        obtain rfl := Except.ok.inj loaded
        exact .absent rfl found
      | some path => simp [found, reject] at loaded
  · rintro (⟨rfl, noFile⟩ | ⟨⟨bytes, text, found, decoded, read⟩, gives⟩)
    · simp [noFile]
    · simp only [found]
      exact ofBytes_eq_ok_iff.mpr ⟨text, _, decoded, read, gives⟩

/-- A configuration file that breaks a rule is refused for it. -/
theorem ofFile_of_refused {error : SettingsError} (refused : FileRefused tree named error) :
    ofFile tree named = .error (.reported error) := by
  rw [ofFile, ← pathOf]
  cases refused with
  | missing isNamed noFile =>
    subst isNamed
    simp only [noFile, Option.isSome_some, if_true, reject]
    rfl
  | unreadable found => simp only [found, reject]
  | notToml found decoded malformed =>
    simp only [found]
    exact ofBytes_eq_error_iff.mpr (.inr ⟨_, decoded, .inl ⟨_, _, malformed, rfl⟩⟩)
  | document holds refused =>
    obtain ⟨bytes, text, found, decoded, read⟩ := holds
    simp only [found]
    exact ofBytes_eq_error_iff.mpr (.inr ⟨text, decoded, .inr (.inr ⟨_, read,
      ofDocument_eq_error_iff.mpr (.inl ⟨_, refused, rfl⟩)⟩)⟩)

/-- A configuration file for which there is no rule breaks loading down. -/
theorem ofFile_of_breaks {cause : Breakdown} (breaks : Breaks tree named cause) :
    ofFile tree named = .error (.broken cause) := by
  rw [ofFile, ← pathOf]
  cases breaks with
  | path refused present =>
    simp only [FileTree.find_eq_error_iff.mpr ⟨_, refused, present, rfl⟩]
  | bytes found undecodable =>
    simp only [found]
    exact ofBytes_eq_error_iff.mpr (.inl ⟨_, undecodable, rfl⟩)
  | integer found decoded tooLong =>
    simp only [found]
    exact ofBytes_eq_error_iff.mpr (.inr ⟨_, decoded, .inr (.inl ⟨tooLong, rfl⟩)⟩)
  | document holds breaks =>
    obtain ⟨bytes, text, found, decoded, read⟩ := holds
    simp only [found]
    exact ofBytes_eq_error_iff.mpr (.inr ⟨text, decoded, .inr (.inr ⟨_, read,
      ofDocument_eq_error_iff.mpr (.inr ⟨_, breaks, rfl⟩)⟩)⟩)

/-- A configuration file is refused for the rules that it breaks, and breaks loading down where no
rule is. -/
theorem ofFile_eq_error_iff :
    ofFile tree named = .error failure ↔
      (∃ error, FileRefused tree named error ∧ failure = .reported error) ∨
      ∃ cause, Breaks tree named cause ∧ failure = .broken cause := by
  constructor
  · intro failed
    rw [ofFile, ← pathOf] at failed
    match found : tree.find (pathOf tree named) with
    | .error cause =>
      obtain ⟨error, refused, present, rfl⟩ := FileTree.find_eq_error_iff.mp found
      simp only [found] at failed
      exact .inr ⟨_, .path refused present, (Except.error.inj failed).symm⟩
    | .ok (.unreadable error) =>
      simp only [found, reject] at failed
      exact .inl ⟨_, .unreadable found, (Except.error.inj failed).symm⟩
    | .ok (.bytes bytes) =>
      simp only [found, ofBytes_eq_error_iff, ofDocument_eq_error_iff] at failed
      rcases failed with ⟨fault, undecodable, rfl⟩ | ⟨text, decoded, ⟨reason, left, malformed, rfl⟩ |
        ⟨tooLong, rfl⟩ | ⟨document, read, ⟨error, refused, rfl⟩ | ⟨cause, breaks, rfl⟩⟩⟩
      · exact .inr ⟨_, .bytes found undecodable, rfl⟩
      · exact .inl ⟨_, .notToml found decoded malformed, rfl⟩
      · exact .inr ⟨_, .integer found decoded tooLong, rfl⟩
      · exact .inl ⟨_, .document ⟨bytes, text, found, decoded, read⟩ refused, rfl⟩
      · exact .inr ⟨_, .document ⟨bytes, text, found, decoded, read⟩ breaks, rfl⟩
    | .ok .nothing =>
      cases named with
      | none => simp [found] at failed
      | some path =>
        simp only [found, Option.isSome_some, if_true, reject] at failed
        exact .inl ⟨_, .missing rfl found, (Except.error.inj failed).symm⟩
  · rintro (⟨_, refused, rfl⟩ | ⟨_, breaks, rfl⟩)
    · exact ofFile_of_refused refused
    · exact ofFile_of_breaks breaks

/-- Loading is reading the file, and the level of the environment if it names one. -/
theorem load_eq (tree : FileTree) (named : Option Path) (environment : Option String) :
    load tree named environment =
      ofFile tree named >>= fun settings =>
        if environmentLevel environment = "" then .ok settings
        else levelOf (environmentLevel environment) levelVariable >>= fun level =>
          .ok { settings with level } := rfl

/-- Settings in force are those of the file, with the level that the environment names. -/
theorem load_eq_ok_iff {environment : Option String} :
    load tree named environment = .ok settings ↔ Gives tree named environment settings := by
  simp only [load_eq, bind_eq_ok_iff, ofFile_eq_ok_iff]
  constructor
  · rintro ⟨fromFile, gives, given⟩
    by_cases noLevel : environmentLevel environment = ""
    · rw [if_pos noLevel] at given
      obtain rfl := Except.ok.inj given
      exact .file gives noLevel
    · simp only [if_neg noLevel, bind_eq_ok_iff, levelOf_eq_ok_iff] at given
      obtain ⟨level, name, given⟩ := given
      obtain rfl := Except.ok.inj given
      exact .environment gives noLevel name
  · rintro (⟨gives, noLevel⟩ | ⟨gives, isLevel, name⟩)
    · exact ⟨_, gives, by rw [if_pos noLevel]⟩
    · refine ⟨_, gives, ?_⟩
      rw [if_neg isLevel, bind_eq_ok_iff]
      exact ⟨_, levelOf_eq_ok_iff.mpr name, rfl⟩

/-- Loading fails as the file does, or with a level in the environment that there is none of. -/
theorem load_eq_error_iff {environment : Option String} :
    load tree named environment = .error failure ↔
      (∃ error, Refused tree named environment error ∧ failure = .reported error) ∨
      ∃ cause, Breaks tree named cause ∧ failure = .broken cause := by
  simp only [load_eq, bind_eq_error_iff, ofFile_eq_ok_iff, ofFile_eq_error_iff]
  constructor
  · rintro ((⟨error, refused, rfl⟩ | broken) | ⟨fromFile, gives, failed⟩)
    · exact .inl ⟨_, .file refused, rfl⟩
    · exact .inr broken
    · by_cases noLevel : environmentLevel environment = ""
      · rw [if_pos noLevel] at failed
        cases failed
      · simp only [if_neg noLevel, bind_eq_error_iff, levelOf_eq_error_iff] at failed
        rcases failed with ⟨unknown, rfl⟩ | ⟨_, _, failed⟩
        · exact .inl ⟨_, .environment gives noLevel unknown, rfl⟩
        · cases failed
  · rintro (⟨_, refused, rfl⟩ | broken)
    · cases refused with
      | file refused => exact .inl (.inl ⟨_, refused, rfl⟩)
      | environment gives isLevel unknown =>
        refine .inr ⟨_, gives, ?_⟩
        rw [if_neg isLevel, bind_eq_error_iff]
        exact .inl (levelOf_eq_error_iff.mpr ⟨unknown, rfl⟩)
    · exact .inl (.inr broken)

/-- Loading settings gives those that the file and the environment ask for, or reports the rule that
they break, or breaks down for what no check finds in the path or the file. Each of them happens
exactly where it is said to. -/
theorem load_outcomes (tree : FileTree) (named : Option Path) (environment : Option String) :
    (∀ settings, load tree named environment = .ok settings ↔
      Gives tree named environment settings) ∧
    (∀ error, load tree named environment = .error (.reported error) ↔
      Refused tree named environment error) ∧
    ∀ cause, load tree named environment = .error (.broken cause) ↔ Breaks tree named cause := by
  refine ⟨fun _ => load_eq_ok_iff, fun error => ?_, fun cause => ?_⟩
  · rw [load_eq_error_iff]
    simp
  · rw [load_eq_error_iff]
    simp

/-- Compact output under a level that the environment names. -/
example :
    let content := "[output]\nindent = 4\ncompact = 1\n[logging]\nlevel = \"info\"\n"
    load { home := ["work"], files := [(["work", "zeroapi.toml"], content.toUTF8.toList)] }
      none (some " error ") =
      .ok { indent := none, level := .error, source := some ⟨1, ["work", "zeroapi.toml"]⟩ } := by
  decide +kernel

/-- Not every configuration file that is TOML is refused with a reason or gives settings: a section
may be no table. -/
theorem not_forall_load :
    ¬∀ (tree : FileTree) (named : Option Path) (environment : Option String),
      (∀ bytes text, tree.find (pathOf tree named) = .ok (.bytes bytes) →
        Utf8.decode bytes = .ok text →
        Toml.read (Text.withLineFeeds text) ≠ .error .tooManyDigits) →
      (∃ settings, load tree named environment = .ok settings) ∨
        ∃ error, load tree named environment = .error (.reported error) := by
  intro claim
  let content := "output = 3\n"
  let tree : FileTree :=
    { home := ["work"], files := [(["work", "zeroapi.toml"], content.toUTF8.toList)] }
  have broken : load tree none none = .error (.broken .sectionNoTable) := by decide +kernel
  have readable : ∀ bytes text, tree.find (pathOf tree none) = .ok (.bytes bytes) →
      Utf8.decode bytes = .ok text →
      Toml.read (Text.withLineFeeds text) ≠ .error .tooManyDigits := by
    intro bytes text found decoded tooLong
    have other : load tree none none = .error (.broken .integerTooLong) :=
      load_eq_error_iff.mpr (.inr ⟨_, .integer found decoded tooLong, rfl⟩)
    rw [broken] at other
    cases other
  rcases claim tree none none readable with ⟨_, given⟩ | ⟨_, refused⟩
  · rw [broken] at given
    cases given
  · rw [broken] at refused
    cases refused

end Settings

end ApiDescription
