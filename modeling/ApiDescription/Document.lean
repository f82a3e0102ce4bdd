import ApiDescription.OrderedMap
import ApiDescription.Path
import ApiDescription.TypeExpr

/-!
# Documents

A document holds what a description declares, in the order of the source: its
version, its info block, its imports, its types, and one service whose routes
stand in groups.
-/

namespace ApiDescription

/-- Texts under ordered keys. -/
abbrev Properties := OrderedMap Text Text

/-- The text of a key, or the empty text if the key is absent. -/
def OrderedMap.text (properties : Properties) (key : Text) : Text :=
  (properties.get? key).getD []

/-- The info block. The named fields repeat the properties of the same names, and
are all there is in documents that predate properties. -/
structure Info where
  title : Text := []
  desc : Text := []
  author : Text := []
  version : Text := []
  email : Text := []
  properties : Properties := .empty
  deriving DecidableEq, Repr, Inhabited

/-- A member of a struct. An embedded member has no name of its own. -/
structure Member where
  name : Text := []
  type : TypeExpr
  tag : Text := []
  comment : Text := []
  docs : List Text := []
  embedded : Bool := false
  deriving DecidableEq, Repr, Inhabited

/-- A declared type: a struct with its members, or another name for a type. -/
inductive TypeDecl where
  | struct (name : Text) (members : List Member) (docs : List Text)
  | alias (name : Text) (target : Option TypeExpr) (docs : List Text)
  deriving DecidableEq, Repr, Inhabited

/-- A `@doc` annotation: properties, or a text. -/
structure DocNote where
  properties : Option Properties := none
  text : Text := []
  deriving DecidableEq, Repr, Inhabited

/-- A route of the service. -/
structure Route where
  handler : Text := []
  method : Text := []
  path : Text := []
  request : Option TypeExpr := none
  response : Option TypeExpr := none
  doc : DocNote := {}
  docs : List Text := []
  comment : Text := []
  server : Option Properties := none
  deriving DecidableEq, Repr, Inhabited

/-- The routes of one service block, and the `@server` annotation above it. -/
structure RouteGroup where
  server : Option Properties := none
  routes : List Route := []
  deriving DecidableEq, Repr, Inhabited

/-- The service: its name and all its route groups. -/
structure Service where
  name : Text := []
  groups : List RouteGroup := []
  deriving DecidableEq, Repr, Inhabited

/-- A whole description, and the file it was read from if there is one. -/
structure Document where
  version : Text := []
  info : Info := {}
  imports : List Text := []
  types : List TypeDecl := []
  service : Service := {}
  source : Option Path := none
  deriving DecidableEq, Repr, Inhabited

/-- The name a declaration gives to its type. -/
def TypeDecl.name : TypeDecl → Text
  | .struct name _ _ | .alias name _ _ => name

end ApiDescription
