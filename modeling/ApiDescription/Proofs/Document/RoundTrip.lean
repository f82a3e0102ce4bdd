import ApiDescription.Proofs.Document.Heading

/-!
# Written documents are read back

The canonical source of a well-formed document describes this document. Its lines
list the declarations of the document one after the other, and these declarations
make the document again.
-/

namespace ApiDescription

open Piece

namespace Rule

variable (source : List Char)

/-- The line of the version lists it. -/
theorem lists_version {version : Text} (textual : version.isTextual = true) :
    Lists (declaration? source)
      [Line.ofWords ["syntax".toList, ['='], Lexeme.quote version.chars]] [.version version] := by
  refine ⟨[keyword .syntaxWord, .blank, mark .equals, .blank, quoted version] ++ [feed],
    .line ?_ fun flows => ?_, fun place => .single ?_⟩
  · rw [Line.ofWords_cons (by decide)]
    simp [keyword, mark, quoted, chars, Keyword.spelling, Mark.char, Lexeme.quote]
  · exact .keyword .syntaxWord open_feed (.blank (wordlike_keyword _) (.mark .equals
      open_blank.wordlike (.blank (open_mark _).wordlike (.quoted _ open_blank (.feed flows)))))
  · have noDocs : AreDocs [] := by simp [AreDocs]
    refine reads_declaration? noDocs ⟨_, _, _, rfl⟩ (notSpacing_keyword .syntaxWord) rfl fun place =>
      Reads.map ?_ rfl
    refine (reads_expect (.keyword .syntaxWord) _ _).bind_token (.blank ?_)
    refine (reads_expect (.mark .equals) _ _).bind_token (.blank ?_)
    refine (reads_expect .quotedText _ _).bind_token ?_
    have noComment (place : Location) (line : Nat) :
        Reads place (trailingComment line) (aside .comment []) [] (· = .newline) :=
      reads_trailingComment rfl fun absent => absurd rfl absent
    refine (noComment _ _).bind_peek ?_ fun _ _ => rfl
    refine reads_lineEnd.map ?_
    rw [text_plain textual]

/-- The lines of an info block list it, with the last value of every key. -/
theorem lists_infoEntries {entries : List (Text × Text)}
    (wellFormed : ∀ entry ∈ entries, entry.1.IsName ∧ entry.2.isTextual = true) (indent : Nat) :
    Lists (declaration? source) (Line.ofEntries indent "info" entries)
      [.info (Info.ofProperties (.ofList entries))] := by
  refine ⟨_, writtenAs_ofEntries wellFormed indent (keyword .info) rfl
    (.keyword .info open_feed) (wordlike_keyword _), fun place => ?_⟩
  refine .line (skipsFeeds_declaration? source) ?_
  have noDocs : AreDocs [] := by simp [AreDocs]
  refine reads_declaration? noDocs ⟨_, _, _, rfl⟩ (notSpacing_keyword .info) rfl fun place =>
    Reads.map ?_ rfl
  refine (reads_expect (.keyword .info) _ _).bind_token (.blank ?_)
  exact ((reads_indentedBlock source wellFormed indent).map rfl).weaken fun _ _ => trivial

/-- The lines of the info block list it. -/
theorem lists_info {properties : Properties} (wellFormed : PropertiesWellFormed properties) :
    Lists (declaration? source) (Line.ofProperties "info" properties)
      [.info (Info.ofProperties properties)] := by
  have lists := lists_infoEntries source wellFormed 0
  rw [OrderedMap.ofList_entries] at lists
  exact lists

/-- The line of an import lists it. -/
theorem lists_import {file : Text} (textual : file.isTextual = true) :
    Lists (declaration? source) [Line.ofWords ["import".toList, Lexeme.quote file.chars]]
      [.imports [file]] := by
  refine ⟨[keyword .importWord, .blank, quoted file] ++ [feed], .line ?_ fun flows => ?_,
    fun place => .single ?_⟩
  · rw [Line.ofWords_cons (by decide)]
    simp [keyword, quoted, chars, Keyword.spelling, Lexeme.quote]
  · exact .keyword .importWord open_feed
      (.blank (wordlike_keyword _) (.quoted _ open_blank (.feed flows)))
  · have noDocs : AreDocs [] := by simp [AreDocs]
    refine reads_declaration? noDocs ⟨_, _, _, rfl⟩ (notSpacing_keyword .importWord) rfl fun place =>
      Reads.map ?_ rfl
    refine (reads_expect (.keyword .importWord) _ _).bind_token (.blank ?_)
    refine (reads_accepts_of_ne (.mark .leftParen)).bind_peek ?_ fun _ _ => by simp
    refine (reads_expect .quotedText _ _).bind_token (reads_lineEnd.map ?_)
    rw [text_plain textual]

end Rule

namespace Document

/-- The declarations of a document, in the order in which they are written. -/
def declarations (document : Document) : List Declaration :=
  [.version document.version, .info document.info] ++
    document.imports.map (fun file => .imports [file]) ++
    document.types.map (fun type => .types [type]) ++
    document.service.groups.map (.group document.service.name)

/-- The lines of a document list its declarations. -/
theorem WellFormed.lists {document : Document} (wellFormed : document.WellFormed)
    (source : List Char) :
    Rule.Lists (Rule.declaration? source) document.lines document.declarations := by
  have skips := Rule.skipsFeeds_declaration? source
  have version := Rule.lists_version source wellFormed.version
  have info := Rule.lists_info source wellFormed.properties
  rw [← wellFormed.info] at info
  have imports : Rule.Lists (Rule.declaration? source)
      (document.imports.map fun file =>
        Line.ofWords ["import".toList, Lexeme.quote file.chars])
      (document.imports.map fun file => .imports [file]) := by
    rw [List.map_eq_flatMap]
    exact .flatMap fun file member => Rule.lists_import source (wellFormed.imports file member)
  have types : Rule.Lists (Rule.declaration? source)
      (document.types.flatMap fun type => [] :: type.lines)
      (document.types.map fun type => .types [type]) :=
    .flatMap fun type member =>
      (Rule.Lists.emptyLine skips).append (Rule.lists_type (wellFormed.types type member))
  have groups : Rule.Lists (Rule.declaration? source)
      (document.service.groups.flatMap fun group => [] :: group.lines document.service.name)
      (document.service.groups.map (.group document.service.name)) := by
    refine .flatMap fun group member => (Rule.Lists.emptyLine skips).append ?_
    have named := wellFormed.service
    rw [if_neg (List.ne_nil_of_mem member)] at named
    exact Rule.lists_group source named (wellFormed.groups group member)
  exact (((version.append info).append imports).append types).append groups

/-- Imports are gathered in their order. -/
theorem foldl_add_imports (files : List Text) (start : Document) :
    (files.map fun file => Declaration.imports [file]).foldl add start =
      { start with imports := start.imports ++ files } := by
  induction files generalizing start with
  | nil => simp
  | cons file files inductionHypothesis =>
    rw [List.map_cons, List.foldl_cons, inductionHypothesis]
    simp [add]

/-- Types are gathered in their order. -/
theorem foldl_add_types (decls : List TypeDecl) (start : Document) :
    (decls.map fun type => Declaration.types [type]).foldl add start =
      { start with types := start.types ++ decls } := by
  induction decls generalizing start with
  | nil => simp
  | cons type decls inductionHypothesis =>
    rw [List.map_cons, List.foldl_cons, inductionHypothesis]
    simp [add]

/-- Groups are gathered in their order, and all of them name the same service. -/
theorem foldl_add_groups (name : Text) (groups : List RouteGroup) {start : Document}
    (named : start.service.name = [] ∨ start.service.name = name) :
    (groups.map (Declaration.group name)).foldl add start =
      { start with
        service :=
          { name := if groups = [] then start.service.name else name
            groups := start.service.groups ++ groups } } := by
  induction groups generalizing start with
  | nil => simp
  | cons group groups inductionHypothesis =>
    have given : (start.add (.group name group)).service.name = name := by
      rcases named with unnamed | named
      · simp [add, unnamed]
      · simp [add, named]
    rw [List.map_cons, List.foldl_cons, inductionHypothesis (.inr given), given]
    simp [add]

/-- The declarations of a document make it. -/
theorem WellFormed.ofDeclarations {document : Document} (wellFormed : document.WellFormed)
    (file : Path) :
    Document.ofDeclarations (some file) document.declarations =
      { document with source := some file } := by
  have named : (if document.service.groups = [] then [] else document.service.name) =
      document.service.name := by
    have named := wellFormed.service
    split at named
    · next none => rw [if_pos none, named]
    · next some => rw [if_neg some]
  rw [Document.ofDeclarations, declarations, List.foldl_append, List.foldl_append,
    List.foldl_append, foldl_add_imports, foldl_add_types, foldl_add_groups]
  · simp [add, named]
  · exact .inl rfl

/-- The canonical source of a well-formed document describes the document. -/
theorem parse_print (file : Path) {document : Document} (wellFormed : document.WellFormed) :
    parse ⟨file, document.print⟩ = .ok { document with source := some file } := by
  obtain ⟨pieces, written, collects⟩ := wellFormed.lists (Line.text document.lines ++ [])
  have read := declared_lines written ((collects _).heads []) declared_nil
  rw [List.append_nil, List.append_nil] at read
  rw [← wellFormed.ofDeclarations file]
  exact parse_of_declared read file

/-- A keyword names a member, a line feed stands between quotes, and a route has a body and a
comment. -/
theorem parse_print_user :
    let file : Path := Path.ofString "user.api"
    let properties : Properties := .ofList [("title", "a \"b\"\n")]
    let member : Member :=
      { name := "type", type := .arrayOf "4" (.pointerTo (.ofName "base.Id"))
        tag := "\x60json\x60", comment := "// key", docs := ["// Above"] }
    let route : Route :=
      { handler := "find", method := "get", path := "/users/:id", request := some (.ofName "User")
        doc := { text := "one\ttwo" }, comment := "// last" }
    let document : Document :=
      { version := "v1", info := .ofProperties properties, imports := ["base.api"]
        types := [.struct "User" [member] ["// A user", "/* of\nours */"]]
        service := { name := "service", groups := [{ routes := [route] }] } }
    document.WellFormed ∧
      parse ⟨file, document.print⟩ = .ok { document with source := some file } := by
  intro file properties member route document
  have isMember : member.WellFormed := by
    have base : (Text.ofString "base").IsLexeme .identifier := by decide +kernel
    have id : (Text.ofString "Id").IsLexeme .identifier := by decide +kernel
    have size : (Text.ofString "4").IsLexeme .number := by decide +kernel
    exact
      { headed := ⟨_, .named (by decide +kernel) (.array size (.pointer (.qualified base id)))⟩
        tag := by decide +kernel
        comment := by decide +kernel
        sameLine := by decide +kernel
        docs := by decide +kernel }
  have isRoute : route.WellFormed :=
    { handler := by decide +kernel
      method := ⟨"get", by decide, rfl⟩
      path := by decide +kernel
      noComment := by decide +kernel
      request := by
        rintro _ ⟨⟩
        exact ⟨_, .name (by decide +kernel)⟩
      response := nofun
      doc := Text.isTextual_ofChars _
      docs := by decide +kernel
      comment := by decide +kernel
      server := nofun }
  have wellFormed : document.WellFormed :=
    { version := by decide +kernel
      info := rfl
      properties := by decide +kernel
      imports := by decide +kernel
      types := by
        rintro _ (_ | ⟨_, ⟨⟩⟩)
        exact .struct (by decide +kernel) (by simpa using isMember) (by decide +kernel)
      groups := by
        rintro _ (_ | ⟨_, ⟨⟩⟩)
        exact ⟨nofun, by simpa using isRoute⟩
      service := by decide +kernel }
  exact ⟨wellFormed, parse_print file wellFormed⟩

end Document

end ApiDescription
