import ApiDescription.Log
import ApiDescription.Spec
import ApiDescription.Tag

/-!
# The normal form of a document

Nothing is computed here but names and settings: a named field of the info block
comes from the properties when there are any, the last annotated group gives the
server settings, and the text of a `@doc` becomes its summary.
-/

namespace ApiDescription.Spec

/-- The metadata of an info block. Properties and older single fields are never
mixed: if there are properties, they alone count. -/
def Metadata.ofInfo (info : Info) : Metadata :=
  if info.properties.isEmpty then
    { title := info.title
      desc := info.desc
      author := info.author
      version := info.version
      email := info.email }
  else
    { title := info.properties.text "title"
      desc := info.properties.text "desc"
      author := info.properties.text "author"
      date := info.properties.text "date"
      version := info.properties.text "version"
      email := info.properties.text "email"
      properties := info.properties }

/-- The field of a member. -/
def Field.ofMember (member : Member) : Field :=
  { name := member.name
    type := member.type.name
    tag := member.tag
    comment := member.comment
    docs := member.docs
    embedded := member.embedded
    optional := member.isOptional }

/-- The struct of a declaration; another name for a type has none. -/
def Struct.ofDecl? : TypeDecl → Option Struct
  | .struct name members docs =>
    some { name, rawName := name, fields := members.map Field.ofMember, docs }
  | .alias .. => none

/-- The names in a comma-separated list, without blanks around them. Empty names
do not count. -/
def splitMiddleware (value : Text) : List Text :=
  ((Text.splitOn (.char ',') value).map Text.trim).filter (· ≠ [])

/-- Who may call: the value of `auth`, or of its older name `jwt` if that is empty. -/
def authOf (properties : Properties) : Text :=
  if properties.text "auth" = [] then properties.text "jwt" else properties.text "auth"

/-- The settings of an `@server` annotation. -/
def Server.ofProperties (properties : Properties) : Server :=
  { group := properties.text "group"
    pathPrefix := properties.text "prefix"
    auth := authOf properties
    middleware := splitMiddleware (properties.text "middleware")
    timeout := properties.text "timeout" }

/-- The properties of a `@doc` annotation; its text counts as the summary. -/
def docProperties (note : DocNote) : Properties :=
  let properties := note.properties.getD .empty
  if note.text = [] then properties else properties.insert "summary" note.text

/-- The name of the type of a body; no body has the empty name. -/
def bodyName (body : Option TypeExpr) : Text := (body.map TypeExpr.name).getD []

/-- The normal form of a route. -/
def Route.ofRoute (route : ApiDescription.Route) : Route :=
  { handler := route.handler
    method := route.method
    path := route.path
    request := bodyName route.request
    response := bodyName route.response
    doc := docProperties route.doc
    docs := route.docs
    server := route.server.getD .empty }

/-- The settings in force behind a group: its own, if it has any. -/
def Server.after (server : Server) (group : RouteGroup) : Server :=
  match group.server with
  | some properties => Server.ofProperties properties
  | none => server

/-- The normal form of a service: the settings of the last annotated group, and
the routes of all groups in order. -/
def Service.ofService (service : ApiDescription.Service) : Service :=
  { name := service.name
    server := service.groups.foldl Server.after {}
    routes := (service.groups.flatMap (·.routes)).map Route.ofRoute }

/-- The normal form of a document, which has exactly one service. -/
def ofDocument (document : Document) : Spec :=
  { version := document.version
    info := Metadata.ofInfo document.info
    imports := document.imports.map fun file => { value := file }
    types := document.types.filterMap Struct.ofDecl?
    services := [Service.ofService document.service] }

/-- The records about groups whose settings replace other settings than none. -/
def replacements : Server → List RouteGroup → List LogRecord
  | _, [] => []
  | server, group :: rest =>
    let later := replacements (server.after group) rest
    if group.server.isSome && server ≠ {} then
      { level := .debug
        component := "zeroapi.core.normalizer"
        text := "Group @server block replaces earlier server settings" } :: later
    else later

/-- What is logged while a document is brought to its normal form. -/
def normalizationLog (document : Document) : List LogRecord :=
  let kept := (document.types.filterMap Struct.ofDecl?).length
  let routes := (document.service.groups.flatMap (·.routes)).length
  let source := (document.source.map Path.toString).getD "<document>"
  replacements {} document.service.groups ++
    [{ level := .debug
       component := "zeroapi.core.normalizer"
       text := "Normalized " ++ source ++ ": " ++ toString kept ++ " types (" ++
         toString (document.types.length - kept) ++ " skipped), " ++ toString routes ++
         " routes" }]

end ApiDescription.Spec
