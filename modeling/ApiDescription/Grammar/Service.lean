import ApiDescription.Grammar.Property
import ApiDescription.Grammar.TypeExpr

/-!
# Services

A service block holds routes between braces and may stand below an `@server`
annotation. A route has annotations of its own, in any order, and one line with
its method, its path and the types of its bodies.
-/

namespace ApiDescription

/-- The methods a route may have. -/
def httpMethods : List String :=
  ["get", "head", "post", "put", "patch", "delete", "connect", "options", "trace"]

/-- An annotation above a route. -/
inductive RouteNote where
  | doc (note : DocNote)
  | server (properties : Properties)
  | handler (name : Text)
  deriving DecidableEq, Repr

/-- What the annotations above a route say together: of each kind the last one. -/
structure RouteNotes where
  doc : DocNote := {}
  server : Option Properties := none
  handler : Text := []
  deriving DecidableEq, Repr

namespace RouteNotes

/-- Adds an annotation to those above it. -/
def add (notes : RouteNotes) : RouteNote → RouteNotes
  | .doc note => { notes with doc := note }
  | .server properties => { notes with server := some properties }
  | .handler name => { notes with handler := name }

/-- What a list of annotations says. -/
def ofList (notes : List RouteNote) : RouteNotes := notes.foldl add {}

/-- The handler's name. Without a `@handler`, the property of that name in the
route's `@server` annotation gives it. -/
def handlerName (notes : RouteNotes) : Text :=
  if notes.handler = [] then (notes.server.map (·.text "handler")).getD [] else notes.handler

end RouteNotes

namespace Rule

/-- One annotation of a route and the line feeds and comments behind it, or `none`
if no annotation comes next. -/
def routeNote? (source : List Char) : Rule (Option RouteNote) := do
  let note ← match (← current).kind with
    | .marker .doc =>
      let _ ← advance
      if ← sees .quotedText then
        pure (RouteNote.doc { text := (← advance).text })
      else
        pure (RouteNote.doc { properties := some (← propertyBlock source) })
    | .marker .server =>
      let _ ← advance
      pure (RouteNote.server (← propertyBlock source))
    | .marker .handler =>
      let _ ← advance
      pure (RouteNote.handler (← expectName).text)
    | _ => return none
  skipSpacing
  return some note

/-- A type between parentheses; empty parentheses mean no body. -/
def bodyType : Rule (Option TypeExpr) := do
  let _ ← expect (.mark .leftParen)
  if ← accepts (.mark .rightParen) then return none
  let body ← typeExpr
  let _ ← expect (.mark .rightParen)
  return some body

/-- The annotations of a route and its line. A missing handler is noticed only
when the whole line has been read. -/
def route (source : List Char) (docs : List Text) : Rule Route := do
  let notes := RouteNotes.ofList (← many (routeNote? source))
  let methodToken ← expectName
  let method := methodToken.value.toLower
  if !httpMethods.contains method then failAt methodToken (.unknownMethod methodToken.value)
  let path := (← expect .path).value
  let request ← if ← sees (.mark .leftParen) then bodyType else pure none
  let response ← if ← accepts (.keyword .returns) then bodyType else pure none
  let comment ← trailingComment methodToken.start.line
  lineEnd
  if notes.handlerName = [] then failAt methodToken (.missingHandler method path)
  return {
    handler := notes.handlerName, method := Text.ofString method, path := Text.ofString path
    request, response
    doc := notes.doc, docs, comment, server := notes.server }

/-- One route with its docs, or `none` behind the closing brace. -/
def route? (source : List Char) (service : String) : Rule (Option Route) := do
  let docs ← docs
  if ← accepts (.mark .rightBrace) then return none
  if ← sees .endOfText then fail fun _ => .unterminatedService service
  return some (← route source docs)

/-- The `@server` annotation above a service block, if there is one. -/
def groupServer (source : List Char) : Rule (Option Properties) := do
  if ← accepts (.marker .server) then
    let properties ← propertyBlock source
    skipSpacing
    return some properties
  else return none

/-- A service block with its annotation: the name it gives and its routes. -/
def serviceGroup (source : List Char) : Rule (Text × RouteGroup) := do
  let server ← groupServer source
  let _ ← expect (.keyword .service)
  let name ← expectName
  let _ ← expect (.mark .leftBrace)
  let routes ← many (route? source name.value)
  return (name.text, { server, routes })

end Rule

end ApiDescription
