import ApiDescription.Json
import ApiDescription.Spec

/-!
# Specs as JSON values

Records are objects with their fields in a fixed order. Some fields are left out
when they are empty; reading puts them back, because their default is empty. Keys of
maps are written without lone surrogates, other texts as they are.
-/

namespace ApiDescription.Spec

/-- A field of a record. -/
abbrev Entry := Json.Members

/-- A field that is always written. -/
def always (key : Text) (value : Json) : Entry := [(key, value)]

/-- A text that is left out when it is empty. -/
def unlessBlank (key value : Text) : Entry :=
  if value.isEmpty then [] else [(key, .text value)]

/-- A list of texts as a JSON value. -/
def texts (values : List Text) : Json := .list (values.map .text)

/-- A map of texts with keys that have no lone surrogates. Of keys that become equal the
last value counts, at the first position. -/
def withTextualKeys (values : Properties) : Properties :=
  OrderedMap.ofList (values.entries.map fun entry => (entry.1.replaceSurrogates, entry.2))

/-- A map of texts as a JSON value. -/
def mapping (values : Properties) : Json :=
  .object ((withTextualKeys values).entries.map fun entry => (entry.1, .text entry.2))

/-- A list that is left out when it is empty. -/
def unlessNone {α : Type} (key : Text) (encode : List α → Json) (values : List α) : Entry :=
  if values.isEmpty then [] else [(key, encode values)]

/-- A map that is left out when it is empty. -/
def unlessEmpty (key : Text) (values : Properties) : Entry :=
  if values.isEmpty then [] else [(key, mapping values)]

/-- The metadata as an object. -/
def Metadata.encode (info : Metadata) : Json :=
  .object
    [("title", .text info.title), ("desc", .text info.desc),
     ("author", .text info.author), ("date", .text info.date),
     ("version", .text info.version), ("email", .text info.email),
     ("properties", mapping info.properties)]

/-- A field as an object. Its tag, comment and docs may be left out. -/
def Field.encode (field : Field) : Json :=
  .object (always "name" (.text field.name) ++ always "type" (.text field.type) ++
    unlessBlank "tag" field.tag ++ unlessBlank "comment" field.comment ++
    unlessNone "docs" texts field.docs ++
    always "is_inline" (.bool field.embedded) ++ always "optional" (.bool field.optional))

/-- A struct as an object. All but its name and fields may be left out. -/
def Struct.encode (struct : Struct) : Json :=
  .object (always "name" (.text struct.name) ++
    unlessBlank "package" struct.package ++ unlessBlank "type_name" struct.typeName ++
    unlessBlank "raw_name" struct.rawName ++
    always "fields" (.list (struct.fields.map Field.encode)) ++
    unlessNone "docs" texts struct.docs ++ unlessEmpty "enums" struct.enums)

/-- An import as an object. All but the file may be left out. -/
def Import.encode (file : Import) : Json :=
  .object (always "value" (.text file.value) ++
    unlessBlank "as_package" file.asPackage ++
    unlessNone "types" (fun types => .list (types.map Struct.encode)) file.types)

/-- The settings of a service as an object. -/
def Server.encode (server : Server) : Json :=
  .object
    [("group", .text server.group), ("prefix", .text server.pathPrefix),
     ("auth", .text server.auth), ("middleware", texts server.middleware),
     ("timeout", .text server.timeout)]

/-- A route as an object. Its docs and its own settings may be left out. -/
def Route.encode (route : Route) : Json :=
  .object (always "handler" (.text route.handler) ++
    always "method" (.text route.method) ++ always "path" (.text route.path) ++
    always "request_type" (.text route.request) ++
    always "response_type" (.text route.response) ++
    always "doc" (mapping route.doc) ++ unlessNone "docs" texts route.docs ++
    unlessEmpty "at_server_annotation" route.server)

/-- A service as an object. -/
def Service.encode (service : Service) : Json :=
  .object
    [("name", .text service.name), ("server", service.server.encode),
     ("routes", .list (service.routes.map Route.encode))]

/-- A spec as a JSON value. -/
def encode (spec : Spec) : Json :=
  .object
    [("syntax", .text spec.version), ("info", spec.info.encode),
     ("imports", .list (spec.imports.map Import.encode)),
     ("types", .list (spec.types.map Struct.encode)),
     ("services", .list (spec.services.map Service.encode))]

end ApiDescription.Spec
