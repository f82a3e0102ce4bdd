import ApiDescription.Convert.Libraries
import ApiDescription.Input
import ApiDescription.Json.Printer
import ApiDescription.Spec.Encode

/-!
# Running a conversion

A run is a function of the file tree, the arguments and the environment. It reads a
document, brings it to its normal form, and writes that to standard output or to a
file. Whatever fails ends the run with a diagnostic, or without one if the run broke
down, and then nothing is written. The file that was to be written is then left as it
was, unless it was opened before: it is empty if the run broke down, and holds what
could be written if not all could.
-/

namespace ApiDescription.Convert

/-- A run that came to its end: its exit code, what it printed, and the file it wrote. -/
structure Report where
  code : Nat := 0
  output : String := ""
  errors : List String := []
  written : Option (List String × List UInt8) := none
  deriving DecidableEq, Repr

/-- How a run ends. -/
inductive Outcome where
  | broken (cause : Breakdown)
  | finished (report : Report)
  deriving DecidableEq, Repr

/-- The end of a run: its outcome, and the file it leaves empty, which was opened for content
that cannot be handed out. -/
structure Ending where
  outcome : Outcome
  emptied : Option (List String) := none
  deriving DecidableEq, Repr

/-- The lines of the records that are severe enough to be shown. -/
def shownLog (level : LogLevel) (log : List LogRecord) : List String :=
  (log.filter fun record => level.rank ≤ record.level.rank).map LogRecord.line

/-- A record of the program itself. -/
def ownRecord (level : LogLevel) (text : String) : LogRecord :=
  { level, component := "zeroapi.cli.convert", text }

/-- A diagnostic for an editor, with the file as seen from the working directory. -/
def editorText (home : Path) (diagnostic : Diagnostic) : String :=
  match diagnostic.context with
  | none => "::error: " ++ diagnostic.message
  | some context =>
    let file := (context.file.relativeTo? home).getD context.file
    file.toString ++ ":" ++ toString context.line ++ ":" ++ toString context.column ++
      ": error: " ++ diagnostic.message

/-- A failure, behind what was logged before it. -/
def failed (log : List String) (line : String) : Outcome :=
  .finished { code := 1, errors := log ++ [line] }

/-- The indentation in force. Compact output was asked for, or a width, or indented output
where the configuration wants none; otherwise the configuration decides. -/
def indentOf (options : Options) (settings : Settings) : Option Nat :=
  if options.compact = some true then none
  else
    match options.indent with
    | some width => some width
    | none =>
      if options.compact = some false && settings.indent.isNone then some 2
      else settings.indent

/-- The bytes of a string with a line feed behind it. -/
def lineBytes (string : String) : List UInt8 := (string ++ "\n").toUTF8.toList

/-- The report on a line that was handed out to a sink, or to standard output. -/
def handedOut (errors : List String) (string : String) : Option Sink → Report
  | none => { output := string ++ "\n", errors }
  | some sink => { errors, written := sink.file?.map (·, lineBytes string) }

/-- The report on a line of which a sink took only the first bytes. -/
def cutShort (errors : List String) (string : String) (count : Nat) (sink : Sink) : Report :=
  { code := 1, errors, written := sink.file?.map (·, (lineBytes string).take count) }

section

variable (libraries : Libraries)

/-- A diagnostic in the format that was asked for. -/
def diagnosticLine (home : Path) (format : ErrorFormat) (label : String)
    (diagnostic : Diagnostic) : String :=
  match format with
  | .human => libraries.printed label diagnostic.text
  | .vscode => libraries.echoed (editorText home diagnostic)

/-- What is said about a file that cannot be written. -/
def unwritableLine (path : Path) (error : FileError) : String :=
  libraries.printed "Output error" ("Cannot write " ++ path.toString ++ ": " ++ error.text path)

/-- A spec in the format in force, without line feeds at its end. -/
def render (options : Options) (settings : Settings) (spec : Spec) :
    Except (Failure String) Text :=
  match options.format.getD settings.format with
  | .yaml =>
    ((libraries.yaml spec.encode).map (Text.dropEndWhile (· = .char '\n'))).mapError .reported
  | .json =>
    let indent := (indentOf options settings).map Int.ofNat
    (Json.write { indent, asciiOnly := settings.asciiOnly } spec.encode).mapError .broken

/-- Hands a string out to a sink, which may be able to take only some of its bytes. -/
def deliverTo (tree : FileTree) (path : Path) (level : LogLevel) (log : List String)
    (string : String) (sink : Sink) : Report :=
  match tree.limit? sink.parts (lineBytes string).length with
  | some (count, error) =>
    cutShort (log ++ [unwritableLine libraries path (.carrying error)]) string count sink
  | none =>
    let notice := ownRecord .info ("Normalized spec written to " ++ path.toString)
    handedOut (log ++ shownLog level [notice]) string (some sink)

/-- Hands content out: to standard output, or to the file that was asked for, which is opened
first. Lone surrogates cannot be handed out. -/
def deliver (tree : FileTree) (options : Options) (level : LogLevel) (log : List String)
    (content : Text) : Ending :=
  match options.output with
  | none =>
    match content.toString? with
    | some string => { outcome := .finished (handedOut log (libraries.echoed string) none) }
    | none => { outcome := .broken .loneSurrogate }
  | some path =>
    match tree.openToWrite path with
    | .error (.broken cause) => { outcome := .broken cause }
    | .error (.reported error) =>
      { outcome := failed log (unwritableLine libraries path (.opening error)) }
    | .ok sink =>
      match content.toString? with
      | some string =>
        { outcome := .finished (deliverTo libraries tree path level log string sink) }
      | none => { outcome := .broken .loneSurrogate, emptied := sink.file? }

/-- Converts a file under settings that have been loaded. -/
def convertWith (tree : FileTree) (options : Options) (settings : Settings) : Ending :=
  let level := if options.verbose then .debug else settings.level
  let loaded := settings.source.toList.map fun path =>
    ownRecord .debug ("Loaded settings from " ++ path.toString)
  let outcome := Spec.ofFile tree options.file
  let log := shownLog level (loaded ++ outcome.log)
  let refuse (label : String) (diagnostic : Diagnostic) : Ending :=
    { outcome := failed log
        (diagnosticLine libraries tree.homePath options.errorFormat label diagnostic) }
  match outcome.result with
  | .error (.broken cause) => { outcome := .broken cause }
  | .error (.reported error) => refuse "Parse error" error.diagnostic
  | .ok spec =>
    match render libraries options settings spec with
    | .error (.broken cause) => { outcome := .broken cause }
    | .error (.reported reason) =>
      refuse "Encode error" { message := "Failed to encode spec: " ++ reason }
    | .ok content => deliver libraries tree options level log content

/-- Converts a file. -/
def convert (tree : FileTree) (environment : Option String) (options : Options) : Ending :=
  match Settings.load tree options.config environment with
  | .ok settings => convertWith libraries tree options settings
  | .error (.broken cause) => { outcome := .broken cause }
  | .error (.reported error) =>
    { outcome := failed [] (libraries.printed "Config error" error.message) }

/-- What is said about the version of the program, and about the interpreter. -/
def versionText : String :=
  libraries.echoed "zeroapi version 0.3.0" ++ "\n" ++
    libraries.echoed ("Python " ++ libraries.interpreter) ++ "\n"

/-- Does what the arguments ask for. -/
def perform (tree : FileTree) (environment : Option String) (arguments : List String) : Ending :=
  match libraries.request arguments with
  | .answered code output errors => { outcome := .finished { code, output, errors } }
  | .version => { outcome := .finished { output := versionText libraries } }
  | .convert options => convert libraries tree environment options

/-- The outcome of a run of the program. -/
def run (tree : FileTree) (environment : Option String) (arguments : List String) : Outcome :=
  (perform libraries tree environment arguments).outcome

end

/-- The file tree after a run. -/
def Ending.treeAfter (ending : Ending) (tree : FileTree) : FileTree :=
  match ending.emptied with
  | some parts => tree.write parts []
  | none =>
    match ending.outcome with
    | .finished { written := some (parts, bytes), .. } => tree.write parts bytes
    | _ => tree

end ApiDescription.Convert
