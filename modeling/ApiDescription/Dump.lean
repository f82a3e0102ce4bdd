import ApiDescription.Checked
import ApiDescription.Document
import ApiDescription.Json.Display

/-!
# Documents from parse-tree dumps

A dump is a JSON object with the fields of a parse tree. It has no schema: absent,
null and otherwise empty values read as empty, containers of another kind read as
empty, and what a type is follows from the keys it has. A value that is not empty
has to fit its place.

Each record is checked as a whole, the records inside it before it; the first
record that does not fit ends the reading.
-/

namespace ApiDescription.Dump

/-- Why a JSON value is not a dump of a document. -/
inductive Fault where
  /-- The value is not an object. -/
  | notAnObject
  /-- A type's name is a list or an object, which cannot be looked up among the names
  of builtin types. -/
  | uncomparableName
  /-- An item among texts holds an integer with too many digits to be shown. -/
  | unshowableItem
  /-- The places of a record that do not fit. -/
  | misfits (issues : List Issue)
  deriving DecidableEq, Repr

/-- The result of reading a part of a dump. -/
abbrev Result := Except Fault

open Json (Members)

/-- A record that fits, or its issues. -/
def record {α : Type} : Checked α → Result α
  | .valid value => .ok value
  | .invalid issues => .error (.misfits issues)

/-- Whether a value counts as empty: nothing, no, zero, and what has no content. -/
def isEmptyValue : Json → Bool
  | .null => true
  | .bool value => !value
  | .number (.integer value) => value = 0
  | .number (.decimal value) => (Binary64.ofDecimal value).isZero
  | .number _ => false
  | .text value => value.isEmpty
  | .list items => items.isEmpty
  | .object members => members.isEmpty

/-- The members of an object; other values have none. -/
def membersOf : Json → Members
  | .object members => members
  | _ => []

/-- The members of the object under a key. -/
def objectAt (members : Members) (key : Text) : Members :=
  ((Json.member? members key).map membersOf).getD []

/-- The objects in the list under a key; other items are passed over. -/
def objectsAt (members : Members) (key : Text) : List Members :=
  match Json.member? members key with
  | some (.list items) => items.filterMap fun
    | .object item => some item
    | _ => none
  | _ => []

/-- The text under a key. Empty values of any kind read as the empty text. -/
def textAt (members : Members) (key : Text) : Checked Text :=
  match Json.member? members key with
  | none => pure []
  | some value => if isEmptyValue value then pure [] else Json.checkText value

/-- An item among texts; an item of another kind is shown as text. -/
def shownItem (item : Json) : Result Text :=
  match item.display? with
  | some shown => .ok shown
  | none => .error .unshowableItem

/-- The texts in the list under a key. -/
def textsAt (members : Members) (key : Text) : Result (List Text) :=
  match Json.member? members key with
  | some (.list items) => items.mapM shownItem
  | _ => .ok []

/-- The entries of a map of texts. -/
def propertiesOf (members : Members) : Checked Properties :=
  OrderedMap.ofList <$> Json.checkEntries (OrderedMap.ofList members).entries

/-- The info block. -/
def info (members : Members) : Result Info :=
  record (Info.mk <$> (textAt members "Title").under (.key "title") <*>
    (textAt members "Desc").under (.key "desc") <*>
    (textAt members "Author").under (.key "author") <*>
    (textAt members "Version").under (.key "version") <*>
    (textAt members "Email").under (.key "email") <*>
    (propertiesOf (objectAt members "Properties")).under (.key "properties"))

/-- The value of a key stands inside the object. -/
theorem sizeOf_member?_lt {members : Members} {key : Text} {value : Json}
    (found : Json.member? members key = some value) : sizeOf value < sizeOf members := by
  unfold Json.member? at found
  obtain ⟨entry, located, rfl⟩ := Option.map_eq_some_iff.1 found
  have inside : entry ∈ members := List.mem_reverse.1 (List.mem_of_find?_eq_some located)
  have smaller := List.sizeOf_lt_of_mem inside
  have part : sizeOf entry.2 < sizeOf entry := by
    rw [Prod.mk.sizeOf_spec entry.1 entry.2]
    omega
  omega

/-- The name of a type that has no parts: the type it is follows from the name. -/
def leafType (members : Members) (name : Checked Text) : Result TypeExpr :=
  match Json.member? members "RawName" with
  | some (.list (_ :: _)) | some (.object (_ :: _)) => .error .uncomparableName
  | _ => do
    let name ← record name
    return if name = TypeExpr.emptyInterface then .interface name else .ofName name

/-- A type. It is a map, an array, a pointer or a struct's name according to its keys,
and otherwise what its name says. -/
def typeExpr : Json → Result TypeExpr
  | .object members =>
    let name := (textAt members "RawName").under (.key "raw_name")
    match _ : Json.member? members "Value" with
    | some valueType => do
      let inner ← typeExpr valueType
      match Json.member? members "Key" with
      | some key =>
        record (TypeExpr.map <$> name <*> (Json.checkText key).under (.key "key") <*>
          pure inner)
      | none => record (TypeExpr.array <$> name <*> pure inner)
    | none =>
      match _ : Json.member? members "Type" with
      | some targetType => do
        let inner ← typeExpr targetType
        record (TypeExpr.pointer <$> name <*> pure inner)
      | none =>
        if (Json.member? members "Members").isSome then record (TypeExpr.named <$> name)
        else leafType members name
  | _ => .ok (.named [])
termination_by json => sizeOf json
decreasing_by
  all_goals
    have := sizeOf_member?_lt ‹Json.member? members _ = some _›
    simp
    omega

/-- A member of a struct. -/
def member (members : Members) : Result Member := do
  let type ← typeExpr ((Json.member? members "Type").getD .null)
  let docs ← textsAt members "Docs"
  record (Member.mk <$> (textAt members "Name").under (.key "name") <*> pure type <*>
    (textAt members "Tag").under (.key "tag") <*>
    (textAt members "Comment").under (.key "comment") <*>
    pure docs <*>
    pure (match Json.member? members "IsInline" with
      | some value => !isEmptyValue value
      | none => false))

/-- A declaration: a struct if it has members, otherwise another name for a type. -/
def typeDecl (members : Members) : Result TypeDecl := do
  let name := (textAt members "RawName").under (.key "raw_name")
  let docs ← textsAt members "Docs"
  if (Json.member? members "Members").isSome then
    let parts ← (objectsAt members "Members").mapM member
    record (TypeDecl.struct <$> name <*> pure parts <*> pure docs)
  else
    let target ← typeExpr (.object members)
    record (TypeDecl.alias <$> name <*> pure (some target) <*> pure docs)

/-- The properties of an annotation. Null and absent properties are none. -/
def noteProperties (members : Members) : Checked (Option Properties) :=
  match Json.member? members "Properties" with
  | none | some .null => pure none
  | some value => some <$> (propertiesOf (membersOf value)).under (.key "properties")

/-- A `@server` annotation, which is there only with properties. -/
def serverNote (members : Members) : Result (Option Properties) :=
  record (noteProperties members)

/-- A `@doc` annotation. -/
def docNote (members : Members) : Result DocNote :=
  record (DocNote.mk <$> noteProperties members <*> (textAt members "Text").under (.key "text"))

/-- The type of a body. What is not an object is no body. -/
def bodyType (members : Members) (key : Text) : Result (Option TypeExpr) :=
  match Json.member? members key with
  | some (.object body) => some <$> typeExpr (.object body)
  | _ => .ok none

/-- A route. -/
def route (members : Members) : Result Route := do
  let request ← bodyType members "RequestType"
  let response ← bodyType members "ResponseType"
  let doc ← docNote (objectAt members "AtDoc")
  let docs ← textsAt members "Docs"
  let server ← serverNote (objectAt members "AtServerAnnotation")
  record ((fun handler method path =>
      { handler, method, path, request, response, doc, docs, server : Route }) <$>
    (textAt members "Handler").under (.key "handler") <*>
    (textAt members "Method").under (.key "method") <*>
    (textAt members "Path").under (.key "path"))

/-- A group of routes. -/
def group (members : Members) : Result RouteGroup := do
  let server ← serverNote (objectAt members "Annotation")
  let routes ← (objectsAt members "Routes").mapM route
  return { server, routes }

/-- The service. -/
def service (members : Members) : Result Service := do
  let groups ← (objectsAt members "Groups").mapM group
  record ((fun name => { name, groups : Service }) <$>
    (textAt members "Name").under (.key "name"))

/-- The file an import names. -/
def importedFile (members : Members) : Result Text :=
  record ((textAt members "Value").under (.key "value"))

/-- The document of a dump, read from a file if there is one. -/
def document (json : Json) (source : Option Path) : Result Document := do
  match json with
  | .object members =>
    let version ←
      record ((textAt (objectAt members "Syntax") "Version").under (.key "version"))
    let info ← info (objectAt members "Info")
    let imports ← (objectsAt members "Imports").mapM importedFile
    let types ← (objectsAt members "Types").mapM typeDecl
    let service ← service (objectAt members "Service")
    return { version, info, imports, types, service, source }
  | _ => throw .notAnObject

/-- The text of a fault. What exactly does not fit is told by its issues. -/
def Fault.message (fault : Fault) (source : Option Path) : String :=
  let file := (source.map Path.toString).getD "<dump>"
  match fault with
  | .notAnObject => file ++ ": expected a JSON object at top level"
  | .uncomparableName | .unshowableItem | .misfits _ => file ++ ": malformed ApiSpec dump"

end ApiDescription.Dump
