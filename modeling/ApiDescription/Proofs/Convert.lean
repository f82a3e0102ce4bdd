import ApiDescription.Convert.Run
import ApiDescription.Proofs.Input
import ApiDescription.Proofs.Spec.Controls

/-!
# How a conversion ends

A conversion whose settings load ends in one of four ways. It hands its content out, all of it
and to the one place that was asked for; or it refuses, with a diagnostic, and leaves no trace;
or its output takes only a part of the content, and there is a diagnostic; or it breaks down,
without a diagnostic.

The four ways are described by the stages of the conversion, not by the code that runs through
them: what the settings and the file give, which layout is in force, where the output leads.
Content with a lone surrogate is a breakdown that comes late. If the content goes to a file, that
file has been opened by then, and is left empty.

The libraries are arbitrary. Only the content on standard output depends on what is known of
them: it goes there as it is because it shows no escape characters.
-/

namespace ApiDescription

namespace FileTree

/-- Of two trees the second one has these bytes in one file, and is the same elsewhere. -/
structure Writes (before after : FileTree) (parts : List String) (bytes : List UInt8) : Prop where
  file : after.files.lookup parts = some bytes
  others : ∀ other, other ≠ parts → after.files.lookup other = before.files.lookup other
  home : after.home = before.home
  directories : after.directories = before.directories
  devices : after.devices = before.devices
  faults : after.faults = before.faults
  limits : after.limits = before.limits

/-- Writing a file changes this file only. -/
theorem writes_write (tree : FileTree) (parts : List String) (bytes : List UInt8) :
    tree.Writes (tree.write parts bytes) parts bytes where
  file := List.lookup_cons_self
  others := by
    intro other isOther
    have kept (files : List (List String × List UInt8)) :
        (files.filter fun file => file.1 ≠ parts).lookup other = files.lookup other := by
      induction files with
      | nil => rfl
      | cons file files inductionHypothesis =>
        obtain ⟨name, content⟩ := file
        by_cases same : name = parts
        · have passed : (other == name) = false := beq_false_of_ne (same ▸ isOther)
          rw [List.filter_cons_of_neg (by simp [same]), inductionHypothesis, List.lookup_cons,
            passed]
        · rw [List.filter_cons_of_pos (by simp [same]), List.lookup_cons, List.lookup_cons,
            inductionHypothesis]
    rw [write, List.lookup_cons, beq_false_of_ne isOther]
    exact kept tree.files
  home := rfl
  directories := rfl
  devices := rfl
  faults := rfl
  limits := rfl

end FileTree

namespace Convert

/-- The width of indentation in force: none for compact output; else the width that was asked
for; else two, where indented output was asked for and the configuration wants none; else what
the configuration says. -/
inductive Width (options : Options) (settings : Settings) : Option Nat → Prop where
  | compact (asked : options.compact = some true) : Width options settings none
  | asked {width : Nat} (notCompact : options.compact ≠ some true)
    (asked : options.indent = some width) : Width options settings (some width)
  | pretty (asked : options.compact = some false) (noWidth : options.indent = none)
    (configured : settings.indent = none) : Width options settings (some 2)
  | configured (notCompact : options.compact ≠ some true) (noWidth : options.indent = none)
    (kept : options.compact = none ∨ settings.indent ≠ none) :
    Width options settings settings.indent

/-- The layout of JSON with a width of indentation. -/
def layoutOf (settings : Settings) (width : Option Nat) : Json.Layout :=
  { indent := width.map Int.ofNat, asciiOnly := settings.asciiOnly }

/-- What a place keeps of bytes that it takes: no file changes but the one that is written, and
standard output and devices leave no trace in a tree. -/
def Leaves (before after : FileTree) (bytes : List UInt8) : Option Sink → Prop
  | some (.file parts) => before.Writes after parts bytes
  | _ => after = before

/-- Where the content of a conversion goes: to standard output, or to the file or device that
was asked for and may be written. A file may be a new one in a directory that is there. -/
inductive Target (tree : FileTree) (options : Options) : Option Sink → Prop where
  | standard (noOutput : options.output = none) : Target tree options none
  | file {path : Path} {parts : List String} (asked : options.output = some path)
    (found : tree.locate path = .file parts ∨ tree.locate path = .vacant parts)
    (allowed : tree.fault? .openToWrite parts = none) : Target tree options (some (.file parts))
  | device {path : Path} {parts : List String} (asked : options.output = some path)
    (found : tree.locate path = .device parts)
    (allowed : tree.fault? .openToWrite parts = none) : Target tree options (some (.device parts))

/-- A place has room for bytes. -/
def HasRoom (tree : FileTree) (bytes : List UInt8) : Option Sink → Prop
  | none => True
  | some sink => tree.limit? sink.parts bytes.length = none

section

variable (libraries : Libraries)

/-- The content that a spec is printed as. -/
inductive Prints (options : Options) (settings : Settings) (spec : Spec) : Text → Prop where
  | json {width : Option Nat} (format : options.format.getD settings.format = .json)
    (inForce : Width options settings width)
    (possible : (layoutOf settings width).breakdown? = none) :
    Prints options settings spec (Json.print (layoutOf settings width) spec.encode)
  | yaml {text : Text} (format : options.format.getD settings.format = .yaml)
    (emitted : libraries.yaml spec.encode = .ok text) :
    Prints options settings spec (Text.dropEndWhile (· = .char '\n') text)

variable (tree : FileTree) (environment : Option String) (options : Options)

/-- The settings load, the file holds a document, and its normal form is printed as this. -/
def Yields (content : Text) : Prop :=
  ∃ settings document, Settings.load tree options.config environment = .ok settings ∧
    (Document.ofFile tree options.file).result = .ok document ∧
    Prints libraries options settings (Spec.ofDocument document) content

/-- The content is this string, without lone surrogates, and this is where it goes. -/
def Carries (string : String) (target : Option Sink) : Prop :=
  ∃ content, Yields libraries tree environment options content ∧
    content.toString? = some string ∧ Target tree options target

/-- What a conversion refuses, by the diagnostic. -/
inductive Refuses : String → Prop where
  | settings {error : SettingsError}
    (loads : Settings.load tree options.config environment = .error (.reported error)) :
    Refuses (libraries.printed "Config error" error.message)
  | input {settings : Settings} {error : InputError}
    (loads : Settings.load tree options.config environment = .ok settings)
    (reads : (Document.ofFile tree options.file).result = .error (.reported error)) :
    Refuses (diagnosticLine libraries tree.homePath options.errorFormat "Parse error"
      error.diagnostic)
  | encoding {settings : Settings} {document : Document} {reason : String}
    (loads : Settings.load tree options.config environment = .ok settings)
    (reads : (Document.ofFile tree options.file).result = .ok document)
    (format : options.format.getD settings.format = .yaml)
    (fails : libraries.yaml (Spec.ofDocument document).encode = .error reason) :
    Refuses (diagnosticLine libraries tree.homePath options.errorFormat "Encode error"
      { message := "Failed to encode spec: " ++ reason })
  | output {content : Text} {path : Path} {error : OsError}
    (yields : Yields libraries tree environment options content)
    (asked : options.output = some path)
    (unwritable : tree.openToWrite path = .error (.reported error)) :
    Refuses (unwritableLine libraries path (.opening error))

/-- Why a conversion breaks down, and the file that it empties. -/
inductive Breaks : Breakdown → Option (List String) → Prop where
  | input {settings : Settings} {cause : Breakdown}
    (loads : Settings.load tree options.config environment = .ok settings)
    (breaks : Document.BreaksDown tree options.file cause) : Breaks cause none
  | layout {settings : Settings} {document : Document} {width : Option Nat} {cause : Breakdown}
    (loads : Settings.load tree options.config environment = .ok settings)
    (reads : (Document.ofFile tree options.file).result = .ok document)
    (format : options.format.getD settings.format = .json)
    (inForce : Width options settings width)
    (impossible : (layoutOf settings width).breakdown? = some cause) : Breaks cause none
  | output {content : Text} {path : Path}
    (yields : Yields libraries tree environment options content)
    (asked : options.output = some path) (unnameable : tree.locate path = .unnameable) :
    Breaks .nullInPath none
  | surrogate {content : Text} {target : Option Sink}
    (yields : Yields libraries tree environment options content)
    (found : content.isTextual = false) (goes : Target tree options target) :
    Breaks .loneSurrogate (target.bind Sink.file?)

end

variable {libraries : Libraries} {tree : FileTree} {environment : Option String}
  {options : Options} {settings : Settings} {spec : Spec} {content : Text} {string : String}
  {target : Option Sink} {sink : Sink} {path : Path} {level : LogLevel} {log : List String}

/-- There is a width in force. -/
theorem width_indentOf (options : Options) (settings : Settings) :
    Width options settings (indentOf options settings) := by
  unfold indentOf
  split
  · next asked => exact .compact asked
  · next notCompact =>
    split
    · next width asked => exact .asked notCompact asked
    · next noWidth =>
      split
      · next pretty =>
        simp only [Bool.and_eq_true, decide_eq_true_eq, Option.isNone_iff_eq_none] at pretty
        exact .pretty pretty.1 noWidth pretty.2
      · next notPretty =>
        refine .configured notCompact noWidth ?_
        simp only [Bool.and_eq_true, decide_eq_true_eq, Option.isNone_iff_eq_none,
          not_and] at notPretty
        match given : options.compact with
        | none => exact .inl rfl
        | some true => exact absurd given notCompact
        | some false => exact .inr (notPretty given)

/-- There is only one width in force. -/
theorem Width.eq_indentOf {width : Option Nat} (inForce : Width options settings width) :
    width = indentOf options settings := by
  cases inForce with
  | compact asked => simp [indentOf, asked]
  | asked notCompact asked => simp [indentOf, notCompact, asked]
  | pretty asked noWidth configured => simp [indentOf, asked, noWidth, configured]
  | configured notCompact noWidth kept =>
    rcases kept with plain | isSet
    · simp [indentOf, plain, noWidth]
    · simp [indentOf, notCompact, noWidth, isSet]

/-- As JSON, a spec is rendered in the layout in force. -/
theorem render_of_json (format : options.format.getD settings.format = .json) :
    render libraries options settings spec =
      (Json.write (layoutOf settings (indentOf options settings)) spec.encode).mapError .broken := by
  simp only [render, format, layoutOf]

/-- As YAML, a spec is rendered as the library does it, without line feeds at the end. -/
theorem render_of_yaml (format : options.format.getD settings.format = .yaml) :
    render libraries options settings spec =
      ((libraries.yaml spec.encode).map (Text.dropEndWhile (· = .char '\n'))).mapError
        .reported := by
  simp only [render, format]

/-- JSON is written if its layout can be carried out. -/
theorem mapError_write (layout : Json.Layout) (tree : Json) :
    ((Json.write layout tree).mapError .broken : Except (Failure String) Text) =
      (layout.breakdown?.map Failure.broken).elim (.ok (Json.print layout tree)) .error := by
  unfold Json.write
  cases layout.breakdown? <;> rfl

/-- Rendering gives the content that a spec is printed as. -/
theorem render_eq_ok_iff :
    render libraries options settings spec = .ok content ↔
      Prints libraries options settings spec content := by
  constructor
  · intro rendered
    match format : options.format.getD settings.format with
    | .yaml =>
      rw [render_of_yaml format] at rendered
      match emitted : libraries.yaml spec.encode with
      | .ok text =>
        rw [emitted] at rendered
        obtain rfl := Except.ok.inj rendered
        exact .yaml format emitted
      | .error reason =>
        rw [emitted] at rendered
        cases rendered
    | .json =>
      rw [render_of_json format, mapError_write] at rendered
      match possible : (layoutOf settings (indentOf options settings)).breakdown? with
      | none =>
        rw [possible] at rendered
        obtain rfl := Except.ok.inj rendered
        exact .json format (width_indentOf options settings) possible
      | some cause =>
        rw [possible] at rendered
        cases rendered
  · rintro (⟨format, inForce, possible⟩ | ⟨format, emitted⟩)
    · obtain rfl := inForce.eq_indentOf
      rw [render_of_json format, mapError_write, possible]
      rfl
    · rw [render_of_yaml format, emitted]
      rfl

/-- Rendering breaks down if the layout in force cannot be carried out. -/
theorem render_eq_broken_iff {cause : Breakdown} :
    render libraries options settings spec = .error (.broken cause) ↔
      options.format.getD settings.format = .json ∧
        ∃ width, Width options settings width ∧
          (layoutOf settings width).breakdown? = some cause := by
  constructor
  · intro broken
    match format : options.format.getD settings.format with
    | .yaml =>
      rw [render_of_yaml format] at broken
      cases emitted : libraries.yaml spec.encode <;> rw [emitted] at broken <;> cases broken
    | .json =>
      rw [render_of_json format, mapError_write] at broken
      match impossible : (layoutOf settings (indentOf options settings)).breakdown? with
      | none =>
        rw [impossible] at broken
        cases broken
      | some cause =>
        rw [impossible] at broken
        cases broken
        exact ⟨rfl, _, width_indentOf options settings, impossible⟩
  · rintro ⟨format, width, inForce, impossible⟩
    obtain rfl := inForce.eq_indentOf
    rw [render_of_json format, mapError_write, impossible]
    rfl

/-- Rendering is refused if there is no YAML for the spec. -/
theorem render_eq_reported_iff {reason : String} :
    render libraries options settings spec = .error (.reported reason) ↔
      options.format.getD settings.format = .yaml ∧
        libraries.yaml spec.encode = .error reason := by
  constructor
  · intro refused
    match format : options.format.getD settings.format with
    | .yaml =>
      rw [render_of_yaml format] at refused
      cases fails : libraries.yaml spec.encode <;> rw [fails] at refused <;> cases refused
      exact ⟨rfl, rfl⟩
    | .json =>
      rw [render_of_json format, mapError_write] at refused
      cases possible : (layoutOf settings (indentOf options settings)).breakdown? <;>
        rw [possible] at refused <;> cases refused
  · rintro ⟨format, fails⟩
    rw [render_of_yaml format, fails]
    rfl

/-- Content without lone surrogates has the characters of its string. -/
theorem toList_of_toString? (textual : content.toString? = some string) :
    content.isTextual = true ∧ string.toList = content.chars := by
  unfold Text.toString? at textual
  split at textual
  · next isTextual =>
    obtain rfl := Option.some.inj textual
    exact ⟨isTextual, String.toList_ofList⟩
  · cases textual

/-- Printed content shows no escape characters. -/
theorem not_mem_of_prints (documented : libraries.Documented)
    (prints : Prints libraries options settings spec content) :
    .char escapeCharacter ∉ content := by
  cases prints with
  | @json width format inForce possible =>
    intro isShown
    rcases spec.isShown_print (layoutOf settings width) _ isShown _ rfl with above | feed
    · exact absurd above (by decide)
    · exact absurd feed (by decide)
  | @yaml text format emitted =>
    intro isLeft
    have isThere : .char escapeCharacter ∈ text := by
      rw [Text.dropEndWhile, List.mem_reverse] at isLeft
      exact List.mem_reverse.mp ((List.dropWhile_sublist _).subset isLeft)
    exact documented.yaml _ _ emitted isThere

/-- Printed content is echoed as it is. -/
theorem echoed_of_prints (documented : libraries.Documented)
    (prints : Prints libraries options settings spec content)
    (textual : content.toString? = some string) : libraries.echoed string = string := by
  refine documented.echoed string fun isShown => ?_
  rw [(toList_of_toString? textual).2] at isShown
  obtain ⟨point, isPoint, isEscape⟩ := List.mem_filterMap.mp isShown
  cases point with
  | char c =>
    obtain rfl := Option.some.inj isEscape
    exact not_mem_of_prints documented prints isPoint
  | surrogate => cases isEscape

/-- What was asked for can be opened exactly if the output leads there. -/
theorem openToWrite_eq_ok_iff (asked : options.output = some path) :
    tree.openToWrite path = .ok sink ↔ Target tree options (some sink) := by
  have opens (sink other : Sink) : tree.openSink other = .ok sink ↔
      tree.fault? .openToWrite other.parts = none ∧ other = sink := by
    unfold FileTree.openSink
    cases tree.fault? .openToWrite other.parts <;> simp
  constructor
  · intro opened
    unfold FileTree.openToWrite at opened
    match found : tree.locate path with
    | .file parts =>
      simp only [found, opens] at opened
      obtain ⟨allowed, rfl⟩ := opened
      exact .file asked (.inl found) allowed
    | .vacant parts =>
      simp only [found, opens] at opened
      obtain ⟨allowed, rfl⟩ := opened
      exact .file asked (.inr found) allowed
    | .device parts =>
      simp only [found, opens] at opened
      obtain ⟨allowed, rfl⟩ := opened
      exact .device asked found allowed
    | .nothing | .directory | .belowFile | .unnameable | .refused _ => simp [found] at opened
  · intro target
    cases target with
    | file askedHere found allowed =>
      obtain rfl := Option.some.inj (askedHere.symm.trans asked)
      rcases found with found | found <;>
        simp [FileTree.openToWrite, found, opens, Sink.parts, allowed]
    | device askedHere found allowed =>
      obtain rfl := Option.some.inj (askedHere.symm.trans asked)
      simp [FileTree.openToWrite, found, opens, Sink.parts, allowed]

/-- Opening breaks down on a path that nothing can have, and on no other. -/
theorem openToWrite_eq_broken_iff {cause : Breakdown} :
    tree.openToWrite path = .error (.broken cause) ↔
      tree.locate path = .unnameable ∧ cause = .nullInPath := by
  have opens (other : Sink) : tree.openSink other ≠ .error (.broken cause) := by
    unfold FileTree.openSink
    cases tree.fault? .openToWrite other.parts <;> simp
  unfold FileTree.openToWrite
  cases tree.locate path <;> simp [opens, eq_comm]

/-- The output leads somewhere, or it cannot be opened. -/
theorem exists_target_or_unopened (tree : FileTree) (options : Options) :
    (∃ target, Target tree options target) ∨
      ∃ path failure, options.output = some path ∧ tree.openToWrite path = .error failure := by
  match asked : options.output with
  | none => exact .inl ⟨_, .standard asked⟩
  | some path =>
    match opened : tree.openToWrite path with
    | .ok sink => exact .inl ⟨_, (openToWrite_eq_ok_iff asked).mp opened⟩
    | .error failure => exact .inr ⟨path, failure, rfl, opened⟩

/-- Without an output that was asked for, content goes to standard output, and only then. -/
theorem Target.eq_none_iff (goes : Target tree options target) :
    target = none ↔ options.output = none := by
  cases goes with
  | standard noOutput => simp [noOutput]
  | file asked | device asked => simp [asked]

/-- Content is handed out where the output leads, if there is room for it. -/
theorem deliver_of_room (textual : content.toString? = some string)
    (echoes : libraries.echoed string = string) (goes : Target tree options target)
    (room : HasRoom tree (lineBytes string) target) :
    ∃ errors, deliver libraries tree options level log content =
      { outcome := .finished (handedOut errors string target) } := by
  cases asked : options.output with
  | none =>
    obtain rfl := goes.eq_none_iff.mpr asked
    exact ⟨log, by simp only [deliver, asked, textual, echoes]⟩
  | some path =>
    cases target with
    | none => exact absurd (goes.eq_none_iff.mp rfl) (by simp [asked])
    | some sink =>
      have opened := (openToWrite_eq_ok_iff asked).mpr goes
      have unlimited : tree.limit? sink.parts (lineBytes string).length = none := room
      simp only [deliver, asked, opened, textual, deliverTo, unlimited]
      exact ⟨_, rfl⟩

/-- Content is cut short where the output takes only so many bytes. -/
theorem deliver_of_limit {count : Nat} {error : OsError}
    (textual : content.toString? = some string) (asked : options.output = some path)
    (goes : Target tree options (some sink))
    (limited : tree.limit? sink.parts (lineBytes string).length = some (count, error)) :
    deliver libraries tree options level log content =
      { outcome := .finished (cutShort (log ++ [unwritableLine libraries path (.carrying error)])
          string count sink) } := by
  have opened := (openToWrite_eq_ok_iff asked).mpr goes
  simp only [deliver, asked, opened, textual, deliverTo, limited]

/-- Content with a lone surrogate empties the file that the output leads to. -/
theorem deliver_of_surrogate (goes : Target tree options target)
    (found : content.isTextual = false) :
    deliver libraries tree options level log content =
      { outcome := .broken .loneSurrogate, emptied := target.bind Sink.file? } := by
  have noString : content.toString? = none := by simp [Text.toString?, found]
  cases asked : options.output with
  | none =>
    obtain rfl := goes.eq_none_iff.mpr asked
    simp only [deliver, asked, noString, Option.bind_none]
  | some path =>
    cases target with
    | none => exact absurd (goes.eq_none_iff.mp rfl) (by simp [asked])
    | some sink =>
      have opened := (openToWrite_eq_ok_iff asked).mpr goes
      simp only [deliver, asked, opened, noString, Option.bind_some]

/-- A conversion that yields content delivers it. -/
theorem convert_of_yields (yields : Yields libraries tree environment options content) :
    ∃ level log, convert libraries tree environment options =
      deliver libraries tree options level log content := by
  obtain ⟨settings, document, loads, reads, prints⟩ := yields
  have normal : (Spec.ofFile tree options.file).result = .ok (Spec.ofDocument document) := by
    simp only [Spec.ofFile, reads]
  simp only [convert, loads, convertWith, normal, render_eq_ok_iff.mpr prints]
  exact ⟨_, _, rfl⟩

/-- What a conversion refuses ends it with the diagnostic. -/
theorem convert_of_refuses {line : String}
    (refuses : Refuses libraries tree environment options line) :
    ∃ log, convert libraries tree environment options = { outcome := failed log line } := by
  cases refuses with
  | «settings» loads => exact ⟨[], by simp only [convert, loads]⟩
  | input loads reads =>
    simp only [convert, loads, convertWith, Spec.ofFile, reads]
    exact ⟨_, rfl⟩
  | @encoding settings document reason loads reads format fails =>
    have refused : render libraries options settings (Spec.ofDocument document) =
        .error (.reported reason) := render_eq_reported_iff.mpr ⟨format, fails⟩
    simp only [convert, loads, convertWith, Spec.ofFile, reads, refused]
    exact ⟨_, rfl⟩
  | output yields asked unwritable =>
    obtain ⟨level, log, delivers⟩ := convert_of_yields yields
    exact ⟨log, by rw [delivers]; simp only [deliver, asked, unwritable]⟩

/-- What a conversion breaks down on ends it without a diagnostic. -/
theorem convert_of_breaks {cause : Breakdown} {emptied : Option (List String)}
    (breaks : Breaks libraries tree environment options cause emptied) :
    convert libraries tree environment options = { outcome := .broken cause, emptied } := by
  cases breaks with
  | input loads breaks =>
    have broken := Document.result_ofFile_eq_broken_iff.mpr breaks
    simp only [convert, loads, convertWith, Spec.ofFile, broken]
  | @layout settings document width cause loads reads format inForce impossible =>
    have broken : render libraries options settings (Spec.ofDocument document) =
        .error (.broken cause) :=
      render_eq_broken_iff.mpr ⟨format, width, inForce, impossible⟩
    simp only [convert, loads, convertWith, Spec.ofFile, reads, broken]
  | output yields asked unnameable =>
    obtain ⟨level, log, delivers⟩ := convert_of_yields yields
    have broken := openToWrite_eq_broken_iff.mpr ⟨unnameable, rfl⟩
    rw [delivers]
    simp only [deliver, asked, broken]
  | surrogate yields found goes =>
    obtain ⟨level, log, delivers⟩ := convert_of_yields yields
    rw [delivers, deliver_of_surrogate goes found]

/-- What a file that was written keeps is all that is left behind. -/
theorem leaves_treeAfter (tree : FileTree) (report : Report) (bytes : List UInt8)
    (target : Option Sink)
    (written : report.written = (target.bind Sink.file?).map (·, bytes)) :
    Leaves tree (Ending.treeAfter { outcome := .finished report } tree) bytes target := by
  obtain ⟨code, output, errors, file⟩ := report
  obtain rfl : file = _ := written
  match target with
  | none | some (.device _) => rfl
  | some (.file parts) => exact tree.writes_write parts bytes

/-- A conversion whose settings load, or are refused, hands its content out, or as much of it as
there is room for, is refused or breaks down. -/
theorem exists_ending (libraries : Libraries) (tree : FileTree) (environment : Option String)
    (options : Options)
    (loads : ∀ cause, Settings.load tree options.config environment ≠ .error (.broken cause)) :
    (∃ string target, Carries libraries tree environment options string target) ∨
      (∃ line, Refuses libraries tree environment options line) ∨
      ∃ cause emptied, Breaks libraries tree environment options cause emptied := by
  rcases loaded : Settings.load tree options.config environment with (error | cause) | settings
  · exact .inr (.inl ⟨_, .settings loaded⟩)
  · exact absurd loaded (loads cause)
  rcases read : (Document.ofFile tree options.file).result with (error | cause) | document
  · exact .inr (.inl ⟨_, .input loaded read⟩)
  · exact .inr (.inr ⟨_, _, .input loaded (Document.result_ofFile_eq_broken_iff.mp read)⟩)
  rcases rendered : render libraries options settings (Spec.ofDocument document) with
    (reason | cause) | content
  · obtain ⟨format, fails⟩ := render_eq_reported_iff.mp rendered
    exact .inr (.inl ⟨_, .encoding loaded read format fails⟩)
  · obtain ⟨format, width, inForce, impossible⟩ := render_eq_broken_iff.mp rendered
    exact .inr (.inr ⟨_, _, .layout loaded read format inForce impossible⟩)
  have yields : Yields libraries tree environment options content :=
    ⟨settings, document, loaded, read, render_eq_ok_iff.mp rendered⟩
  rcases exists_target_or_unopened tree options with
    ⟨target, goes⟩ | ⟨path, error | cause, asked, unopened⟩
  · cases textual : content.toString? with
    | some string => exact .inl ⟨string, target, content, yields, textual, goes⟩
    | none =>
      have found : content.isTextual = false := by
        by_contra isTextual
        simp [Text.toString?, isTextual] at textual
      exact .inr (.inr ⟨_, _, .surrogate yields found goes⟩)
  · exact .inr (.inl ⟨_, .output yields asked unopened⟩)
  · obtain ⟨unnameable, rfl⟩ := openToWrite_eq_broken_iff.mp unopened
    exact .inr (.inr ⟨_, _, .output yields asked unnameable⟩)

/-- A conversion whose settings load, or are refused, ends in one of four ways. Its content,
with one line feed behind it, goes to the place where the output leads, and nothing else
changes; or the file there takes only the first bytes of it, and there is a diagnostic and code
1; or the conversion ends with a diagnostic and with code 1, and prints and writes nothing; or
it breaks down, and writes nothing but the file that it empties. -/
theorem perform_convert {libraries : Libraries} (documented : libraries.Documented)
    {tree : FileTree} {environment : Option String} {arguments : List String}
    {options : Options} (asked : libraries.request arguments = .convert options) :
    let ending := perform libraries tree environment arguments
    (∀ string target, Carries libraries tree environment options string target →
      HasRoom tree (lineBytes string) target →
      (∃ errors, ending = { outcome := .finished (handedOut errors string target) }) ∧
        Leaves tree (ending.treeAfter tree) (lineBytes string) target) ∧
    (∀ string path sink count error,
      Carries libraries tree environment options string (some sink) →
      options.output = some path →
      tree.limit? sink.parts (lineBytes string).length = some (count, error) →
      (∃ log, ending =
        { outcome := .finished (cutShort
            (log ++ [unwritableLine libraries path (.carrying error)]) string count sink) }) ∧
        Leaves tree (ending.treeAfter tree) ((lineBytes string).take count) (some sink)) ∧
    (∀ line, Refuses libraries tree environment options line →
      (∃ log, ending = { outcome := .finished { code := 1, errors := log ++ [line] } }) ∧
        ending.treeAfter tree = tree) ∧
    (∀ cause emptied, Breaks libraries tree environment options cause emptied →
      ending = { outcome := .broken cause, emptied } ∧
        (emptied = none → ending.treeAfter tree = tree) ∧
        ∀ parts, emptied = some parts → tree.Writes (ending.treeAfter tree) parts []) ∧
    ((∀ cause, Settings.load tree options.config environment ≠ .error (.broken cause)) →
      (∃ string target, Carries libraries tree environment options string target) ∨
        (∃ line, Refuses libraries tree environment options line) ∨
        ∃ cause emptied, Breaks libraries tree environment options cause emptied) := by
  intro ending
  have converts : ending = convert libraries tree environment options := by
    simp only [ending, perform, asked]
  refine ⟨fun string target carries room => ?_,
    fun string path sink count error carries askedPath limited => ?_, fun line refuses => ?_,
    fun cause emptied breaks => ?_, exists_ending libraries tree environment options⟩
  · obtain ⟨content, yields, textual, goes⟩ := carries
    obtain ⟨level, log, delivers⟩ := convert_of_yields yields
    obtain ⟨settings, document, -, -, prints⟩ := yields
    obtain ⟨errors, delivered⟩ :=
      deliver_of_room textual (echoed_of_prints documented prints textual) goes room
    rw [converts, delivers, delivered]
    exact ⟨⟨errors, rfl⟩, leaves_treeAfter tree _ _ target (by cases target <;> rfl)⟩
  · obtain ⟨content, yields, textual, goes⟩ := carries
    obtain ⟨level, log, delivers⟩ := convert_of_yields yields
    rw [converts, delivers, deliver_of_limit textual askedPath goes limited]
    exact ⟨⟨log, rfl⟩, leaves_treeAfter tree _ _ (some sink) rfl⟩
  · obtain ⟨log, refused⟩ := convert_of_refuses refuses
    rw [converts, refused]
    exact ⟨⟨log, rfl⟩, rfl⟩
  · rw [converts, convert_of_breaks breaks]
    refine ⟨rfl, ?_, ?_⟩
    · rintro rfl
      rfl
    · rintro parts rfl
      exact tree.writes_write parts []

/-- Libraries that take one list of arguments only, show messages as they are, and know no
YAML. -/
def librariesFor (arguments : List String) (options : Options) : Libraries where
  request given :=
    if given = arguments then .convert options else .answered 2 "" ["Error: unknown arguments"]
  printed label text := label ++ ": " ++ text
  echoed message := message
  yaml _ := .error "cannot represent an object"
  interpreter := ""

/-- Messages without control sequences are shown as they are, and no YAML shows escape
characters. -/
theorem documented_librariesFor (arguments : List String) (options : Options) :
    (librariesFor arguments options).Documented where
  echoed _ _ := rfl
  yaml _ _ emitted := nomatch emitted

/-- A description with one import becomes a new file in compact JSON. -/
theorem perform_convert_compact :
    let tree : FileTree :=
      { home := ["work"], files := [(["work", "a.api"], "import \"b.api\"\n".toUTF8.toList)] }
    let arguments := ["a.api", "-o", "out.json", "--compact"]
    let options : Options :=
      { file := ⟨0, ["a.api"]⟩, compact := some true, output := some ⟨0, ["out.json"]⟩ }
    let libraries := librariesFor arguments options
    let spec : Spec := { imports := [{ value := "b.api" }], services := [{}] }
    let content := String.ofList (Json.print (layoutOf {} none) spec.encode).chars
    (∃ errors, run libraries tree none arguments = .finished
      { errors, written := some (["work", "out.json"], lineBytes content) }) ∧
      tree.Writes ((perform libraries tree none arguments).treeAfter tree) ["work", "out.json"]
        (lineBytes content) := by
  intro tree arguments options libraries spec content
  have loads : Settings.load tree options.config none = .ok {} := by decide +kernel
  have reads : (Document.ofFile tree options.file).result =
      .ok { imports := ["b.api"], source := some ⟨0, ["a.api"]⟩ } := by
    decide +kernel
  have textual : (Json.print (layoutOf {} none) spec.encode).toString? = some content :=
    if_pos (by decide +kernel)
  have goes : Target tree options (some (.file ["work", "out.json"])) :=
    .file rfl (.inr (by decide +kernel)) rfl
  have carries : Carries libraries tree none options content (some (.file ["work", "out.json"])) :=
    ⟨_, ⟨_, _, loads, reads, .json rfl (.compact rfl) rfl⟩, textual, goes⟩
  have asked : libraries.request arguments = .convert options := rfl
  obtain ⟨⟨errors, delivered⟩, leaves⟩ :=
    (perform_convert (documented_librariesFor arguments options) asked).1 _ _ carries rfl
  exact ⟨⟨errors, congrArg Ending.outcome delivered⟩, leaves⟩

/-- Not every conversion of a document to JSON under settings that load has an exit code. A dump
may hold a lone surrogate, which cannot be printed. -/
theorem not_forall_perform_convert :
    ¬∀ (libraries : Libraries) (tree : FileTree) (environment : Option String)
      (arguments : List String) (options : Options) (settings : Settings) (document : Document),
      libraries.Documented → libraries.request arguments = .convert options →
      Settings.load tree options.config environment = .ok settings →
      (Document.ofFile tree options.file).result = .ok document →
      options.format.getD settings.format = .json → options.output = none →
      ∃ report, run libraries tree environment arguments = .finished report ∧
        report.code = 0 := by
  intro claim
  let dump := "\x7b\"Syntax\": \x7b\"Version\": \"\\ud800\"\x7d\x7d"
  let tree : FileTree :=
    { home := ["work"], files := [(["work", "a.json"], dump.toUTF8.toList)] }
  let options : Options := { file := ⟨0, ["a.json"]⟩ }
  let libraries := librariesFor ["a.json"] options
  have reads : (Document.ofFile tree options.file).result =
      .ok { version := [.surrogate 0xd800], source := some ⟨0, ["a.json"]⟩ } := by
    decide +kernel
  have broken : run libraries tree none ["a.json"] = .broken .loneSurrogate := by decide +kernel
  obtain ⟨report, ended, -⟩ := claim libraries tree none ["a.json"] options {} _
    (documented_librariesFor _ _) rfl (by decide +kernel) reads rfl rfl
  rw [broken] at ended
  cases ended

end Convert

end ApiDescription
