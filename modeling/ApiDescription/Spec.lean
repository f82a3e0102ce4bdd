import ApiDescription.Document

/-!
# Specs

A spec is the normal form of a document: types are named by their text, aliases
are gone, and the routes of all groups stand in one list. Its fields are the keys
of the written form.
-/

namespace ApiDescription

namespace Spec

/-- What is known about the description itself. -/
structure Metadata where
  title : Text := []
  desc : Text := []
  author : Text := []
  date : Text := []
  version : Text := []
  email : Text := []
  properties : Properties := .empty
  deriving DecidableEq, Repr, Inhabited

/-- A field of a struct. -/
structure Field where
  name : Text
  type : Text
  tag : Text := []
  comment : Text := []
  docs : List Text := []
  embedded : Bool := false
  optional : Bool := false
  deriving DecidableEq, Repr, Inhabited

/-- A struct. -/
structure Struct where
  name : Text
  package : Text := []
  typeName : Text := []
  rawName : Text := []
  fields : List Field := []
  docs : List Text := []
  enums : Properties := .empty
  deriving DecidableEq, Repr, Inhabited

/-- An imported file, with room for the types it declares. -/
structure Import where
  value : Text
  asPackage : Text := []
  types : List Struct := []
  deriving DecidableEq, Repr, Inhabited

/-- The settings shared by the routes of a service. -/
structure Server where
  group : Text := []
  pathPrefix : Text := []
  auth : Text := []
  middleware : List Text := []
  timeout : Text := []
  deriving DecidableEq, Repr, Inhabited

/-- A route. -/
structure Route where
  handler : Text := []
  method : Text := []
  path : Text := []
  request : Text := []
  response : Text := []
  doc : Properties := .empty
  docs : List Text := []
  server : Properties := .empty
  deriving DecidableEq, Repr, Inhabited

/-- A service with all its routes. -/
structure Service where
  name : Text := []
  server : Server := {}
  routes : List Route := []
  deriving DecidableEq, Repr, Inhabited

end Spec

/-- The normal form of a document. -/
structure Spec where
  version : Text := []
  info : Spec.Metadata := {}
  imports : List Spec.Import := []
  types : List Spec.Struct := []
  services : List Spec.Service := []
  deriving DecidableEq, Repr, Inhabited

end ApiDescription
