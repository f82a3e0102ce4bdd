import ApiDescription.Diagnostic
import ApiDescription.Dump
import ApiDescription.FileTree
import ApiDescription.Grammar.Document
import ApiDescription.Json.Reader
import ApiDescription.Spec.OfDocument
import ApiDescription.Text.Utf8

/-!
# Reading documents from files

A file holds a description, or, if its suffix says so, a parse-tree dump. Whatever
is wrong with it ends the reading with one error. Several files are read one after
the other, and an error in one does not touch the others; only a breakdown ends the
whole reading.
-/

namespace ApiDescription

/-- Why no document could be read from a file. -/
inductive InputError where
  | missing (path : Path)
  | unreadable (path : Path) (error : FileError)
  | undecodable (path : Path) (fault : Utf8.Fault)
  | notJson (path : Path) (text : List Char) (fault : Json.Fault)
  | notDump (path : Option Path) (fault : Dump.Fault)
  | notDescription (source : Source) (fault : SyntaxError)
  deriving DecidableEq, Repr

namespace InputError

/-- What an error says, and about which place. -/
def diagnostic : InputError → Diagnostic
  | .missing path => { message := "API file not found: " ++ path.toString }
  | .unreadable path error =>
    { message := "Cannot read " ++ path.toString ++ ": " ++ error.text path }
  | .undecodable path fault =>
    { message := "Cannot read " ++ path.toString ++ ": " ++ fault.message }
  | .notJson path text fault =>
    let place := fault.place text
    { message := "Invalid JSON: " ++ fault.message
      context := some { file := path, line := place.line, column := place.column } }
  | .notDump path fault => { message := fault.message path }
  | .notDescription source fault => fault.diagnostic source.file (some source.text)

end InputError

/-- The suffix of files that hold dumps. -/
def dumpSuffix : String := ".json"

namespace Document

/-- What is logged about a document read from a dump. -/
def loadedRecord (document : Document) (source : Option Path) : LogRecord :=
  { level := .debug
    component := "zeroapi.core.dump_loader"
    text := "Loaded dump " ++ (source.map Path.toString).getD "None" ++ ": " ++
      toString document.types.length ++ " types, " ++
      toString document.service.groups.length ++ " route groups" }

/-- The document of a decoded dump. -/
def ofDump (json : Json) (source : Option Path) : Logged (Except InputError Document) :=
  match Dump.document json source with
  | .error fault => ⟨.error (.notDump source fault), []⟩
  | .ok document => ⟨.ok document, [document.loadedRecord source]⟩

/-- The document of a description. -/
def ofSource (source : Source) : Logged (Except InputError Document) :=
  let outcome := read source
  ⟨outcome.result.mapError (.notDescription source), outcome.log⟩

/-- An outcome whose error is reported. -/
def reporting {α : Type} (outcome : Logged (Except InputError α)) :
    Logged (Except (Failure InputError) α) :=
  ⟨outcome.result.mapError .reported, outcome.log⟩

/-- The document a text holds, under the name of its file. -/
def ofText (path : Path) (text : List Char) : Logged (Except (Failure InputError) Document) :=
  if path.suffix.toLower = dumpSuffix then
    match Json.read text with
    | .error (.reported fault) => ⟨.error (.reported (.notJson path text fault)), []⟩
    | .error (.broken cause) => ⟨.error (.broken cause), []⟩
    | .ok json => reporting (ofDump json (some path))
  else reporting (ofSource ⟨path, text⟩)

/-- The document in a file. -/
def ofFile (tree : FileTree) (path : Path) : Logged (Except (Failure InputError) Document) :=
  match tree.find path with
  | .error cause => ⟨.error (.broken cause), []⟩
  | .ok .nothing => ⟨.error (.reported (.missing path)), []⟩
  | .ok (.unreadable error) => ⟨.error (.reported (.unreadable path error)), []⟩
  | .ok (.bytes bytes) =>
    match Utf8.decode bytes with
    | .error fault => ⟨.error (.reported (.undecodable path fault)), []⟩
    | .ok text => ofText path (Text.withLineFeeds text)

end Document

namespace Spec

/-- The normal form of the document in a file. -/
def ofFile (tree : FileTree) (path : Path) : Logged (Except (Failure InputError) Spec) :=
  let outcome := Document.ofFile tree path
  match outcome.result with
  | .ok document => ⟨.ok (ofDocument document), outcome.log ++ normalizationLog document⟩
  | .error failure => ⟨.error failure, outcome.log⟩

end Spec

/-- The results of several files, under their paths in the order of first mention. -/
abbrev Batch := List (Path × Except InputError Spec)

namespace Batch

/-- Enters a result. A path mentioned before keeps its position. -/
def enter (path : Path) (result : Except InputError Spec) : Batch → Batch
  | [] => [(path, result)]
  | (other, old) :: rest =>
    if other = path then (path, result) :: rest else (other, old) :: enter path result rest

/-- The warning about a file that is passed over. -/
def skipped (path : Path) (error : InputError) : LogRecord :=
  { level := .warning
    component := "zeroapi.core.parser"
    text := "Skipping " ++ path.toString ++ ": " ++ error.diagnostic.message }

/-- Reads one more file, unless the reading has broken down. -/
def step (tree : FileTree) (batch : Logged (Except Breakdown Batch)) (path : Path) :
    Logged (Except Breakdown Batch) :=
  match batch.result with
  | .error _ => batch
  | .ok results =>
    let outcome := Spec.ofFile tree path
    let log := batch.log ++ outcome.log
    match outcome.result with
    | .ok spec => ⟨.ok (enter path (.ok spec) results), log⟩
    | .error (.reported error) =>
      ⟨.ok (enter path (.error error) results), log ++ [skipped path error]⟩
    | .error (.broken cause) => ⟨.error cause, log⟩

/-- Reads files one after the other. -/
def ofFiles (tree : FileTree) (paths : List Path) : Logged (Except Breakdown Batch) :=
  paths.foldl (step tree) ⟨.ok [], []⟩

end Batch

end ApiDescription
