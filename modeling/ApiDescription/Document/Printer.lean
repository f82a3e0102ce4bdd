import ApiDescription.Document
import ApiDescription.Token.Lexeme

/-!
# Writing documents

Every document has one canonical source: first the version, the info block and the
imports, then the types and the route groups, each behind a blank line. Docs stand
on lines of their own above what they document, and what is absent is left out.
Texts between quotes are written with the escapes that reading undoes.
-/

namespace ApiDescription

/-- One line of a source, without its line feed. -/
abbrev Line := List Char

namespace Line

/-- Words with single blanks between them; empty words are left out. -/
def ofWords (words : List (List Char)) : Line :=
  [' '].intercalate (words.filter (· ≠ []))

/-- The docs above a declaration, one on a line. -/
def ofDocs (docs : List Text) : List Line := docs.map Text.chars

/-- One property. -/
def ofProperty (key value : Text) : Line :=
  key.chars ++ [':', ' '] ++ Lexeme.quote value.chars

/-- Properties between parentheses, behind the words that introduce them. -/
def ofProperties (opening : String) (properties : Properties) : List Line :=
  (opening.toList ++ [' ', '(']) ::
    properties.entries.map (fun entry => ofProperty entry.1 entry.2) ++ [[')']]

end Line

/-- A member and its docs. An embedded member has no name to write. -/
def Member.lines (member : Member) : List Line :=
  Line.ofDocs member.docs ++
    [Line.ofWords
      [member.name.chars, member.type.name.chars, member.tag.chars, member.comment.chars]]

/-- A declaration and its docs. -/
def TypeDecl.lines : TypeDecl → List Line
  | .struct name members docs =>
    Line.ofDocs docs ++ [Line.ofWords ["type".toList, name.chars, ['\x7b']]] ++
      members.flatMap Member.lines ++ [['\x7d']]
  | .alias name target docs =>
    let targetName := (target.map TypeExpr.name).getD []
    Line.ofDocs docs ++ [Line.ofWords ["type".toList, name.chars, ['='], targetName.chars]]

/-- The type of a body between parentheses, if there is a body. -/
def bodyWord (body : Option TypeExpr) : List Char :=
  match body with
  | some type => '(' :: type.name.chars ++ [')']
  | none => []

/-- A `@doc` annotation: a property block, or a text if there is one. -/
def DocNote.lines (note : DocNote) : List Line :=
  match note.properties with
  | some properties => Line.ofProperties "@doc" properties
  | none =>
    if note.text = [] then []
    else [Line.ofWords ["@doc".toList, Lexeme.quote note.text.chars]]

/-- A `@server` annotation, if there is one. -/
def serverLines (server : Option Properties) : List Line :=
  match server with
  | some properties => Line.ofProperties "@server" properties
  | none => []

/-- The line of a route behind its annotations. -/
def Route.line (route : Route) : Line :=
  Line.ofWords
    [route.method.chars, route.path.chars, bodyWord route.request,
     (if route.response.isSome then "returns".toList else []), bodyWord route.response,
     route.comment.chars]

/-- A route with its docs and annotations. -/
def Route.lines (route : Route) : List Line :=
  Line.ofDocs route.docs ++ route.doc.lines ++ serverLines route.server ++
    [Line.ofWords ["@handler".toList, route.handler.chars], route.line]

/-- A group of routes of a service. -/
def RouteGroup.lines (service : Text) (group : RouteGroup) : List Line :=
  serverLines group.server ++
    [Line.ofWords ["service".toList, service.chars, ['\x7b']]] ++
    group.routes.flatMap Route.lines ++ [['\x7d']]

namespace Document

/-- The lines of the canonical source. -/
def lines (document : Document) : List Line :=
  [Line.ofWords ["syntax".toList, ['='], Lexeme.quote document.version.chars]] ++
    Line.ofProperties "info" document.info.properties ++
    document.imports.map (fun file =>
      Line.ofWords ["import".toList, Lexeme.quote file.chars]) ++
    document.types.flatMap (fun type => [] :: type.lines) ++
    document.service.groups.flatMap (fun group => [] :: group.lines document.service.name)

/-- The canonical source, with a line feed behind every line. -/
def print (document : Document) : List Char := document.lines.flatMap (· ++ ['\n'])

end Document

end ApiDescription
