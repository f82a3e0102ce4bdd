import ApiDescription.Document
import ApiDescription.Json

/-!
# Documents as parse-tree dumps

The dump of a document has one object per record, with the keys that reading a dump
looks for. A type is recognised by its keys: a map has a key and a value, an array a
value, a pointer a type, and all others their name alone. The comment of a route and
the target of another name for a type have no place in a dump.
-/

namespace ApiDescription

namespace Dump

/-- An object with keys that are known. -/
def objectOf (members : List (String × Json)) : Json :=
  .object (members.map fun entry => (Text.ofString entry.1, entry.2))

/-- A list of texts. -/
def textList (texts : List Text) : Json := .list (texts.map .text)

/-- A map of texts. -/
def textMap (properties : Properties) : Json :=
  .object (properties.entries.map fun entry => (entry.1, .text entry.2))

/-- A type by its keys. -/
def ofType : TypeExpr → Json
  | .primitive name | .named name | .interface name => objectOf [("RawName", .text name)]
  | .array name value => objectOf [("RawName", .text name), ("Value", ofType value)]
  | .map name key value =>
    objectOf [("RawName", .text name), ("Key", .text key), ("Value", ofType value)]
  | .pointer name target => objectOf [("RawName", .text name), ("Type", ofType target)]

/-- The type of a body; no body is null. -/
def ofBody (body : Option TypeExpr) : Json := (body.map ofType).getD .null

/-- A member of a struct. -/
def ofMember (member : Member) : Json :=
  objectOf
    [("Name", .text member.name), ("Type", ofType member.type), ("Tag", .text member.tag),
     ("Comment", .text member.comment), ("Docs", textList member.docs),
     ("IsInline", .bool member.embedded)]

/-- A declaration; only a struct has members. -/
def ofDecl : TypeDecl → Json
  | .struct name members docs =>
    objectOf
      [("RawName", .text name), ("Members", .list (members.map ofMember)),
       ("Docs", textList docs)]
  | .alias name _ docs => objectOf [("RawName", .text name), ("Docs", textList docs)]

/-- Properties that may be missing; missing ones are null. -/
def ofProperties (properties : Option Properties) : Json :=
  (properties.map textMap).getD .null

/-- A route. -/
def ofRoute (route : Route) : Json :=
  objectOf
    [("Handler", .text route.handler), ("Method", .text route.method),
     ("Path", .text route.path), ("RequestType", ofBody route.request),
     ("ResponseType", ofBody route.response),
     ("AtDoc",
       objectOf
         [("Properties", ofProperties route.doc.properties), ("Text", .text route.doc.text)]),
     ("Docs", textList route.docs),
     ("AtServerAnnotation", objectOf [("Properties", ofProperties route.server)])]

/-- A group of routes. -/
def ofGroup (group : RouteGroup) : Json :=
  objectOf
    [("Annotation", objectOf [("Properties", ofProperties group.server)]),
     ("Routes", .list (group.routes.map ofRoute))]

/-- The info block. -/
def ofInfo (info : Info) : Json :=
  objectOf
    [("Title", .text info.title), ("Desc", .text info.desc), ("Author", .text info.author),
     ("Version", .text info.version), ("Email", .text info.email),
     ("Properties", textMap info.properties)]

end Dump

/-- The dump of a document. -/
def Document.toDump (document : Document) : Json :=
  Dump.objectOf
    [("Syntax", Dump.objectOf [("Version", .text document.version)]),
     ("Info", Dump.ofInfo document.info),
     ("Imports", .list (document.imports.map fun file => Dump.objectOf [("Value", .text file)])),
     ("Types", .list (document.types.map Dump.ofDecl)),
     ("Service",
       Dump.objectOf
         [("Name", .text document.service.name),
          ("Groups", .list (document.service.groups.map Dump.ofGroup))])]

end ApiDescription
