import ApiDescription.Grammar.Header
import ApiDescription.Grammar.Service
import ApiDescription.Grammar.TypeDecl
import ApiDescription.Log

/-!
# Documents

A description is a sequence of declarations in any order. They are read one by
one and then gathered: the last version and the last info block count, imports,
types and route groups keep their order, and the first service block names the
service. A later block under another name is merged and a warning says so.
-/

namespace ApiDescription

/-- One declaration at the top level. -/
inductive Declaration where
  | version (value : Text)
  | info (block : Info)
  | imports (files : List Text)
  | types (decls : List TypeDecl)
  | group (name : Text) (routes : RouteGroup)
  deriving DecidableEq, Repr

namespace Document

/-- Adds a declaration to those before it. -/
def add (document : Document) : Declaration → Document
  | .version value => { document with version := value }
  | .info block => { document with info := block }
  | .imports files => { document with imports := document.imports ++ files }
  | .types decls => { document with types := document.types ++ decls }
  | .group name routes =>
    let service := document.service
    { document with
      service :=
        { name := if service.name = [] then name else service.name
          groups := service.groups ++ [routes] } }

/-- The document made of declarations in their order. -/
def ofDeclarations (source : Option Path) (declarations : List Declaration) : Document :=
  declarations.foldl add { source }

end Document

/-- The names of the service blocks among declarations, in their order. -/
def serviceNames (declarations : List Declaration) : List Text :=
  declarations.filterMap fun
    | .group name _ => some name
    | _ => none

/-- The warning about a service block whose name is not the service's. -/
def mergedService (file : Path) (service name : Text) : LogRecord :=
  { level := .warning
    component := "zeroapi.core.api_parser_impl"
    text := file.toString ++ ": service " ++ Text.quoted name ++ " differs from " ++
      Text.quoted service ++ ", routes are merged into " ++ Text.quoted service }

/-- The warnings about declarations: one for each service block named differently
from the first. -/
def mergeWarnings (file : Path) (declarations : List Declaration) : List LogRecord :=
  match serviceNames declarations with
  | [] => []
  | service :: others => (others.filter (· ≠ service)).map (mergedService file service)

namespace Rule

/-- One declaration with its docs, or `none` at the end of the text. -/
def declaration? (source : List Char) : Rule (Option Declaration) := do
  let docs ← docs
  match (← current).kind with
  | .endOfText => return none
  | .keyword .syntaxWord => return some (.version (← version))
  | .keyword .info => return some (.info (← info source))
  | .keyword .importWord => return some (.imports (← imports))
  | .keyword .type => return some (.types (← typeDecls docs))
  | .marker .server | .keyword .service =>
    let (name, group) ← serviceGroup source
    return some (.group name group)
  | _ => fail .unexpectedDeclaration

/-- All declarations up to the end of the text, or up to the first fault. -/
def declarations (source : List Char) : Stream → Series SyntaxError Stream Declaration :=
  collect (declaration? source)

/-- A whole description. -/
def document (file : Path) (source : List Char) : Rule Document := do
  return Document.ofDeclarations (some file) (← many (declaration? source))

end Rule

/-- A source text, and the file it stands in. -/
structure Source where
  file : Path
  text : List Char
  deriving DecidableEq, Repr

/-- A result that may have failed, and the records logged on the way. -/
structure Logged (α : Type) where
  result : α
  log : List LogRecord := []

namespace Document

/-- What is logged about a document that has been read. -/
def readRecord (document : Document) (file : Path) : LogRecord :=
  { level := .debug
    component := "zeroapi.core.api_parser_impl"
    text := "Parsed " ++ file.toString ++ ": " ++ toString document.imports.length ++
      " imports, " ++ toString document.types.length ++ " types, " ++
      toString document.service.groups.length ++ " route groups" }

/-- Reads a description. Warnings are logged for the declarations before a fault, too. -/
def read (source : Source) : Logged (Except SyntaxError Document) :=
  match tokenize source.text with
  | .error fault => ⟨.error fault, []⟩
  | .ok tokens =>
    let series := Rule.declarations source.text (.ofTokens tokens)
    let warnings := mergeWarnings source.file series.items
    match series.fault with
    | some fault => ⟨.error fault, warnings⟩
    | none =>
      let document := ofDeclarations (some source.file) series.items
      ⟨.ok document, warnings ++ [document.readRecord source.file]⟩

/-- The document a source text describes. -/
def parse (source : Source) : Except SyntaxError Document := (read source).result

end Document

end ApiDescription
