import ApiDescription.Dump
import ApiDescription.Dump.Encode
import ApiDescription.Proofs.Document.Items
import ApiDescription.Proofs.Spec.Fields

/-!
# Loading what was dumped

A dump says of a type only its name and its parts. If the kind of every type without
parts follows from its name, loading the dump of a document restores the document, up
to what has no place in a dump: the comment of a route, the target of another name for
a type, and the file. None of them counts for the normal form.

The types of every description that can be read are of this kind, so that reading a
description and loading its dump lead to the same normal form.
-/

namespace ApiDescription

namespace TypeExpr

/-- The type without parts that a name stands for. -/
def leaf (name : Text) : TypeExpr :=
  if name = emptyInterface then .interface name else .ofName name

theorem leaf_of_primitive {name : Text} (builtin : name ∈ primitiveNames.map Text.ofString) :
    leaf name = .primitive name := by
  have apart : name ≠ emptyInterface ∧ name ≠ Text.ofString "any" := by
    constructor <;> rintro rfl <;> exact absurd builtin (by decide)
  rw [leaf, if_neg apart.1, ofName, if_neg apart.2, if_pos (List.contains_iff_mem.mpr builtin)]

theorem leaf_of_interface {name : Text}
    (untyped : name = emptyInterface ∨ name = Text.ofString "any") :
    leaf name = .interface name := by
  unfold leaf ofName
  rcases untyped with rfl | rfl <;> simp

theorem leaf_of_named {name : Text}
    (declared : name ∉ primitiveNames.map Text.ofString ∧ name ≠ emptyInterface ∧
      name ≠ Text.ofString "any") : leaf name = .named name := by
  obtain ⟨noBuiltin, noEmpty, noAny⟩ := declared
  rw [leaf, if_neg noEmpty, ofName, if_neg noAny, if_neg (mt List.contains_iff_mem.mp noBuiltin)]

end TypeExpr

/-- A declaration without what a dump has no place for: another name for a type comes back
as a name for what the name itself stands for. -/
def TypeDecl.dumped : TypeDecl → TypeDecl
  | .struct name members docs => .struct name members docs
  | .alias name _ docs => .alias name (some (.leaf name)) docs

/-- A route without what a dump has no place for. -/
def Route.dumped (route : Route) : Route := { route with comment := [] }

/-- A group whose routes are those of a dump. -/
def RouteGroup.dumped (group : RouteGroup) : RouteGroup :=
  { group with routes := group.routes.map Route.dumped }

/-- A document without what a dump has no place for, loaded from a file if there is one. -/
def Document.dumped (document : Document) (source : Option Path) : Document :=
  { document with
    types := document.types.map TypeDecl.dumped
    service :=
      { document.service with groups := document.service.groups.map RouteGroup.dumped }
    source }

namespace Dump

open Json (Members)

/-- Members under keys that are known. -/
def known (members : List (String × Json)) : Members :=
  members.map fun entry => (Text.ofString entry.1, entry.2)

theorem objectOf_eq (members : List (String × Json)) : objectOf members = .object (known members) :=
  rfl

/-- Known keys are told apart as strings. -/
theorem member?_known (members : List (String × Json)) (key : String) :
    Json.member? (known members) (Text.ofString key) =
      (members.reverse.find? (·.1 = key)).map Prod.snd := by
  have injective (name : String) : Text.ofString name = Text.ofString key ↔ name = key := by
    refine ⟨fun same => ?_, fun same => by rw [same]⟩
    have strings := congrArg Text.toString? same
    simpa only [Text.toString?_ofString, Option.some.injEq] using strings
  have same : ((fun entry : Text × Json => decide (entry.1 = Text.ofString key)) ∘
      fun entry : String × Json => (Text.ofString entry.1, entry.2)) =
      fun entry => decide (entry.1 = key) := by
    funext entry
    simp [injective]
  rw [Json.member?, known, ← List.map_reverse, List.find?_map, same, Option.map_map]
  rfl

/-- Records that are each restored are restored as a list. -/
theorem mapM_map_eq_ok {α β γ : Type} {read : β → Result γ} {write : α → β} {restored : α → γ}
    {items : List α} (restores : ∀ item ∈ items, read (write item) = .ok (restored item)) :
    (items.map write).mapM read = .ok (items.map restored) := by
  induction items with
  | nil => rfl
  | cons item items inductionHypothesis =>
    rw [List.forall_mem_cons] at restores
    rw [List.map_cons, List.mapM_cons, restores.1, inductionHypothesis restores.2]
    rfl

section Lookup

variable {members : Members} {key : Text}

/-- A text under a key, empty or not. -/
theorem textAt_of_member? {value : Text} (found : Json.member? members key = some (.text value)) :
    textAt members key = pure value := by
  unfold textAt
  rw [found]
  cases value <;> rfl

/-- The texts of a list under a key. -/
theorem textsAt_of_member? {texts : List Text}
    (found : Json.member? members key = some (textList texts)) :
    textsAt members key = .ok texts := by
  unfold textsAt
  rw [found]
  have shown : (texts.map Json.text).mapM shownItem = .ok (texts.map id) :=
    mapM_map_eq_ok fun _ _ => rfl
  rwa [List.map_id] at shown

/-- The object under a key. -/
theorem objectAt_of_member? {inner : Members}
    (found : Json.member? members key = some (.object inner)) : objectAt members key = inner := by
  unfold objectAt
  rw [found]
  rfl

/-- The objects of a list under a key. -/
theorem objectsAt_of_member? {α : Type} {items : List α} (write : α → Json)
    (objects : ∀ item, ∃ inner, write item = .object inner)
    (found : Json.member? members key = some (.list (items.map write))) :
    objectsAt members key = items.map fun item => membersOf (write item) := by
  unfold objectsAt
  rw [found]
  dsimp only
  rw [List.filterMap_map, ← List.filterMap_eq_map]
  congr 1
  funext item
  obtain ⟨inner, same⟩ := objects item
  simp [same, membersOf]

end Lookup

/-- A map of texts is restored with its keys in their order. -/
theorem propertiesOf_textMap (properties : Properties) :
    propertiesOf (properties.entries.map fun entry => (entry.1, .text entry.2)) =
      pure properties := by
  have distinct : ((properties.entries.map fun entry => (entry.1, Json.text entry.2)).map
      Prod.fst).Nodup := by
    rw [List.map_map]
    exact properties.distinct
  rw [propertiesOf, OrderedMap.entries_ofList distinct, Spec.checkEntries_map]
  exact congrArg Checked.valid (OrderedMap.ofList_entries properties)

section Types

variable {members : Members} {name : Text}

/-- A value without the keys of parts is what its name says. -/
theorem typeExpr_leaf (named : Json.member? members "RawName" = some (.text name))
    (noValue : Json.member? members "Value" = none) (noType : Json.member? members "Type" = none)
    (noMembers : Json.member? members "Members" = none) :
    typeExpr (.object members) = .ok (.leaf name) := by
  rw [typeExpr]
  split
  · next found => simp [noValue] at found
  split
  · next found => simp [noType] at found
  rw [noMembers, textAt_of_member? named, leafType, named]
  rfl

/-- A value with a value and no key is an array. -/
theorem typeExpr_array {inner : Json} {value : TypeExpr}
    (named : Json.member? members "RawName" = some (.text name))
    (hasValue : Json.member? members "Value" = some inner)
    (noKey : Json.member? members "Key" = none) (restored : typeExpr inner = .ok value) :
    typeExpr (.object members) = .ok (.array name value) := by
  rw [typeExpr]
  split
  · next found =>
    obtain rfl := Option.some.inj (found.symm.trans hasValue)
    rw [restored, noKey, textAt_of_member? named]
    rfl
  · next found => simp [hasValue] at found

/-- A value with a key and a value is a map. -/
theorem typeExpr_map {inner : Json} {key : Text} {value : TypeExpr}
    (named : Json.member? members "RawName" = some (.text name))
    (hasValue : Json.member? members "Value" = some inner)
    (hasKey : Json.member? members "Key" = some (.text key))
    (restored : typeExpr inner = .ok value) :
    typeExpr (.object members) = .ok (.map name key value) := by
  rw [typeExpr]
  split
  · next found =>
    obtain rfl := Option.some.inj (found.symm.trans hasValue)
    rw [restored, hasKey, textAt_of_member? named]
    rfl
  · next found => simp [hasValue] at found

/-- A value with a type and no value is a pointer. -/
theorem typeExpr_pointer {inner : Json} {target : TypeExpr}
    (named : Json.member? members "RawName" = some (.text name))
    (noValue : Json.member? members "Value" = none)
    (hasType : Json.member? members "Type" = some inner) (restored : typeExpr inner = .ok target) :
    typeExpr (.object members) = .ok (.pointer name target) := by
  rw [typeExpr]
  split
  · next found => simp [noValue] at found
  split
  · next found =>
    obtain rfl := Option.some.inj (found.symm.trans hasType)
    rw [restored, textAt_of_member? named]
    rfl
  · next found => simp [hasType] at found

end Types

/-- A name alone is restored to what the name stands for. -/
theorem typeExpr_nameOnly (name : Text) :
    typeExpr (objectOf [("RawName", .text name)]) = .ok (.leaf name) := by
  rw [objectOf_eq]
  apply typeExpr_leaf <;> simp [member?_known]

/-- A type by its keys is restored, at every depth. -/
theorem typeExpr_ofType {type : TypeExpr} (classified : type.Classified) :
    typeExpr (ofType type) = .ok type := by
  induction type with
  | primitive name =>
    rw [ofType, typeExpr_nameOnly, TypeExpr.leaf_of_primitive classified]
  | named name =>
    rw [ofType, typeExpr_nameOnly, TypeExpr.leaf_of_named classified]
  | interface name =>
    rw [ofType, typeExpr_nameOnly, TypeExpr.leaf_of_interface classified]
  | array name value inductionHypothesis =>
    rw [ofType, objectOf_eq]
    apply typeExpr_array ?_ ?_ ?_ (inductionHypothesis classified) <;> simp [member?_known]
  | map name key value inductionHypothesis =>
    rw [ofType, objectOf_eq]
    apply typeExpr_map ?_ ?_ ?_ (inductionHypothesis classified) <;> simp [member?_known]
  | pointer name target inductionHypothesis =>
    rw [ofType, objectOf_eq]
    apply typeExpr_pointer ?_ ?_ ?_ (inductionHypothesis classified) <;> simp [member?_known]

/-- A member is restored. -/
theorem member_ofMember {parts : Member} (classified : parts.type.Classified) :
    member (membersOf (ofMember parts)) = .ok parts := by
  have fields : membersOf (ofMember parts) = known
      [("Name", .text parts.name), ("Type", ofType parts.type), ("Tag", .text parts.tag),
       ("Comment", .text parts.comment), ("Docs", textList parts.docs),
       ("IsInline", .bool parts.embedded)] := rfl
  have name : textAt (membersOf (ofMember parts)) "Name" = pure parts.name := by
    apply textAt_of_member?
    simp [fields, member?_known]
  have type : Json.member? (membersOf (ofMember parts)) "Type" = some (ofType parts.type) := by
    simp [fields, member?_known]
  have tag : textAt (membersOf (ofMember parts)) "Tag" = pure parts.tag := by
    apply textAt_of_member?
    simp [fields, member?_known]
  have comment : textAt (membersOf (ofMember parts)) "Comment" = pure parts.comment := by
    apply textAt_of_member?
    simp [fields, member?_known]
  have docs : textsAt (membersOf (ofMember parts)) "Docs" = .ok parts.docs := by
    apply textsAt_of_member?
    simp [fields, member?_known]
  have embedded : Json.member? (membersOf (ofMember parts)) "IsInline" =
      some (.bool parts.embedded) := by
    simp [fields, member?_known]
  rw [member, type, name, tag, comment, docs, embedded, Option.getD_some,
    typeExpr_ofType classified]
  dsimp only [isEmptyValue]
  rw [Bool.not_not]
  rfl

/-- A declaration is restored, but for the target of another name. -/
theorem typeDecl_ofDecl {decl : TypeDecl} (classified : decl.Classified) :
    typeDecl (membersOf (ofDecl decl)) = .ok decl.dumped := by
  cases decl with
  | struct name members docs =>
    have fields : membersOf (ofDecl (.struct name members docs)) = known
        [("RawName", .text name), ("Members", .list (members.map ofMember)),
         ("Docs", textList docs)] := rfl
    have named : textAt (membersOf (ofDecl (.struct name members docs))) "RawName" = pure name := by
      apply textAt_of_member?
      simp [fields, member?_known]
    have documented :
        textsAt (membersOf (ofDecl (.struct name members docs))) "Docs" = .ok docs := by
      apply textsAt_of_member?
      simp [fields, member?_known]
    have isStruct : Json.member? (membersOf (ofDecl (.struct name members docs))) "Members" =
        some (.list (members.map ofMember)) := by
      simp [fields, member?_known]
    have parts : objectsAt (membersOf (ofDecl (.struct name members docs))) "Members" =
        members.map fun part => membersOf (ofMember part) :=
      objectsAt_of_member? ofMember (fun _ => ⟨_, rfl⟩) isStruct
    have restored : (members.map fun part => membersOf (ofMember part)).mapM member =
        .ok (members.map id) :=
      mapM_map_eq_ok fun part isPart => member_ofMember (classified part isPart)
    rw [typeDecl, named, documented, isStruct, parts, restored, List.map_id]
    rfl
  | «alias» name target docs =>
    have fields : membersOf (ofDecl (.alias name target docs)) = known
        [("RawName", .text name), ("Docs", textList docs)] := rfl
    have isNamed : Json.member? (membersOf (ofDecl (.alias name target docs))) "RawName" =
        some (.text name) := by
      simp [fields, member?_known]
    have named := textAt_of_member? isNamed
    have documented : textsAt (membersOf (ofDecl (.alias name target docs))) "Docs" = .ok docs := by
      apply textsAt_of_member?
      simp [fields, member?_known]
    have noStruct : Json.member? (membersOf (ofDecl (.alias name target docs))) "Members" =
        none := by
      simp [fields, member?_known]
    have leaf : typeExpr (.object (membersOf (ofDecl (.alias name target docs)))) =
        .ok (.leaf name) := by
      apply typeExpr_leaf isNamed ?_ ?_ noStruct <;> simp [fields, member?_known]
    rw [typeDecl, named, documented, noStruct, leaf]
    rfl

/-- Properties that may be missing are restored: missing ones and none are told apart. -/
theorem noteProperties_of_member? {members : Members} {properties : Option Properties}
    (found : Json.member? members "Properties" = some (ofProperties properties)) :
    noteProperties members = pure properties := by
  unfold noteProperties
  rw [found]
  cases properties with
  | none => rfl
  | some properties =>
    have restored : propertiesOf (membersOf (textMap properties)) = pure properties :=
      propertiesOf_textMap properties
    change some <$> (propertiesOf (membersOf (textMap properties))).under _ = _
    rw [restored]
    rfl

/-- A `@server` annotation is restored. -/
theorem serverNote_ofProperties (properties : Option Properties) :
    serverNote (known [("Properties", ofProperties properties)]) = .ok properties := by
  have restored : noteProperties (known [("Properties", ofProperties properties)]) =
      pure properties := noteProperties_of_member? (by simp [member?_known])
  rw [serverNote, restored]
  rfl

/-- A `@doc` annotation is restored. -/
theorem docNote_ofNote (note : DocNote) :
    docNote (known [("Properties", ofProperties note.properties), ("Text", .text note.text)]) =
      .ok note := by
  have text : textAt (known [("Properties", ofProperties note.properties),
      ("Text", .text note.text)]) "Text" = pure note.text := by
    apply textAt_of_member?
    simp [member?_known]
  have restored : noteProperties (known [("Properties", ofProperties note.properties),
      ("Text", .text note.text)]) = pure note.properties :=
    noteProperties_of_member? (by simp [member?_known])
  rw [docNote, text, restored]
  rfl

/-- The type of a body is restored; no body is told from every type. -/
theorem bodyType_ofBody {members : Members} {key : Text} {body : Option TypeExpr}
    (found : Json.member? members key = some (ofBody body))
    (classified : ∀ type ∈ body, type.Classified) : bodyType members key = .ok body := by
  unfold bodyType
  rw [found]
  cases body with
  | none => rfl
  | some type =>
    obtain ⟨inner, object⟩ : ∃ inner, ofType type = .object inner := by
      cases type <;> exact ⟨_, by rw [ofType, objectOf_eq]⟩
    have restored := typeExpr_ofType (classified type rfl)
    rw [object] at restored
    have body : ofBody (some type) = .object inner := object
    rw [body]
    dsimp only
    rw [restored]
    rfl

/-- A route is restored, but for its comment. -/
theorem route_ofRoute {parts : Route} (classified : parts.Classified) :
    route (membersOf (ofRoute parts)) = .ok parts.dumped := by
  have fields : membersOf (ofRoute parts) = known
      [("Handler", .text parts.handler), ("Method", .text parts.method),
       ("Path", .text parts.path), ("RequestType", ofBody parts.request),
       ("ResponseType", ofBody parts.response),
       ("AtDoc", objectOf
         [("Properties", ofProperties parts.doc.properties), ("Text", .text parts.doc.text)]),
       ("Docs", textList parts.docs),
       ("AtServerAnnotation", objectOf [("Properties", ofProperties parts.server)])] := rfl
  have handler : textAt (membersOf (ofRoute parts)) "Handler" = pure parts.handler := by
    apply textAt_of_member?
    simp [fields, member?_known]
  have method : textAt (membersOf (ofRoute parts)) "Method" = pure parts.method := by
    apply textAt_of_member?
    simp [fields, member?_known]
  have path : textAt (membersOf (ofRoute parts)) "Path" = pure parts.path := by
    apply textAt_of_member?
    simp [fields, member?_known]
  have request : bodyType (membersOf (ofRoute parts)) "RequestType" = .ok parts.request := by
    apply bodyType_ofBody ?_ classified.request
    simp [fields, member?_known]
  have response : bodyType (membersOf (ofRoute parts)) "ResponseType" = .ok parts.response := by
    apply bodyType_ofBody ?_ classified.response
    simp [fields, member?_known]
  have note : objectAt (membersOf (ofRoute parts)) "AtDoc" = known
      [("Properties", ofProperties parts.doc.properties), ("Text", .text parts.doc.text)] := by
    apply objectAt_of_member?
    simp [fields, member?_known, objectOf_eq]
  have docs : textsAt (membersOf (ofRoute parts)) "Docs" = .ok parts.docs := by
    apply textsAt_of_member?
    simp [fields, member?_known]
  have server : objectAt (membersOf (ofRoute parts)) "AtServerAnnotation" =
      known [("Properties", ofProperties parts.server)] := by
    apply objectAt_of_member?
    simp [fields, member?_known, objectOf_eq]
  rw [route, request, response, note, docNote_ofNote, server, serverNote_ofProperties, handler,
    method, path, docs]
  rfl

/-- A group of routes is restored. -/
theorem group_ofGroup {parts : RouteGroup} (classified : ∀ route ∈ parts.routes, route.Classified) :
    group (membersOf (ofGroup parts)) = .ok parts.dumped := by
  have fields : membersOf (ofGroup parts) = known
      [("Annotation", objectOf [("Properties", ofProperties parts.server)]),
       ("Routes", .list (parts.routes.map ofRoute))] := rfl
  have server : objectAt (membersOf (ofGroup parts)) "Annotation" =
      known [("Properties", ofProperties parts.server)] := by
    apply objectAt_of_member?
    simp [fields, member?_known, objectOf_eq]
  have routes : objectsAt (membersOf (ofGroup parts)) "Routes" =
      parts.routes.map fun part => membersOf (ofRoute part) := by
    apply objectsAt_of_member? ofRoute fun _ => ⟨_, rfl⟩
    simp [fields, member?_known]
  have restored : (parts.routes.map fun part => membersOf (ofRoute part)).mapM route =
      .ok (parts.routes.map Route.dumped) :=
    mapM_map_eq_ok fun part isPart => route_ofRoute (classified part isPart)
  rw [group, server, serverNote_ofProperties, routes, restored]
  rfl

/-- A service is restored. -/
theorem service_ofService {parts : Service}
    (classified : ∀ group ∈ parts.groups, ∀ route ∈ group.routes, route.Classified) :
    service (known [("Name", .text parts.name), ("Groups", .list (parts.groups.map ofGroup))]) =
      .ok { parts with groups := parts.groups.map RouteGroup.dumped } := by
  have name : textAt (known [("Name", .text parts.name),
      ("Groups", .list (parts.groups.map ofGroup))]) "Name" = pure parts.name := by
    apply textAt_of_member?
    simp [member?_known]
  have groups : objectsAt (known [("Name", .text parts.name),
      ("Groups", .list (parts.groups.map ofGroup))]) "Groups" =
      parts.groups.map fun part => membersOf (ofGroup part) := by
    apply objectsAt_of_member? ofGroup fun _ => ⟨_, rfl⟩
    simp [member?_known]
  have restored : (parts.groups.map fun part => membersOf (ofGroup part)).mapM group =
      .ok (parts.groups.map RouteGroup.dumped) :=
    mapM_map_eq_ok fun part isPart => group_ofGroup (classified part isPart)
  rw [service, groups, restored, name]
  rfl

/-- The info block is restored. -/
theorem info_ofInfo (parts : Info) : info (membersOf (ofInfo parts)) = .ok parts := by
  have fields : membersOf (ofInfo parts) = known
      [("Title", .text parts.title), ("Desc", .text parts.desc), ("Author", .text parts.author),
       ("Version", .text parts.version), ("Email", .text parts.email),
       ("Properties", textMap parts.properties)] := rfl
  have title : textAt (membersOf (ofInfo parts)) "Title" = pure parts.title := by
    apply textAt_of_member?
    simp [fields, member?_known]
  have desc : textAt (membersOf (ofInfo parts)) "Desc" = pure parts.desc := by
    apply textAt_of_member?
    simp [fields, member?_known]
  have author : textAt (membersOf (ofInfo parts)) "Author" = pure parts.author := by
    apply textAt_of_member?
    simp [fields, member?_known]
  have version : textAt (membersOf (ofInfo parts)) "Version" = pure parts.version := by
    apply textAt_of_member?
    simp [fields, member?_known]
  have email : textAt (membersOf (ofInfo parts)) "Email" = pure parts.email := by
    apply textAt_of_member?
    simp [fields, member?_known]
  have properties : objectAt (membersOf (ofInfo parts)) "Properties" =
      parts.properties.entries.map fun entry => (entry.1, .text entry.2) := by
    apply objectAt_of_member?
    simp [fields, member?_known, textMap]
  rw [info, title, desc, author, version, email, properties, propertiesOf_textMap]
  rfl

/-- An import is restored. -/
theorem importedFile_value (file : Text) :
    importedFile (known [("Value", .text file)]) = .ok file := by
  have value : textAt (known [("Value", .text file)]) "Value" = pure file := by
    apply textAt_of_member?
    simp [member?_known]
  rw [importedFile, value]
  rfl

end Dump

namespace Document

/-- A document whose types are classified is restored from its dump. -/
theorem document_toDump {document : Document} (classified : document.Classified)
    (source : Option Path) :
    Dump.document document.toDump source = .ok (document.dumped source) := by
  have fields : Dump.membersOf document.toDump = Dump.known
      [("Syntax", Dump.objectOf [("Version", .text document.version)]),
       ("Info", Dump.ofInfo document.info),
       ("Imports", .list (document.imports.map fun file => Dump.objectOf [("Value", .text file)])),
       ("Types", .list (document.types.map Dump.ofDecl)),
       ("Service", Dump.objectOf
         [("Name", .text document.service.name),
          ("Groups", .list (document.service.groups.map Dump.ofGroup))])] := rfl
  have head : Dump.objectAt (Dump.membersOf document.toDump) "Syntax" =
      Dump.known [("Version", .text document.version)] := by
    apply Dump.objectAt_of_member?
    simp [fields, Dump.member?_known, Dump.objectOf_eq]
  have version : Dump.textAt (Dump.known [("Version", .text document.version)]) "Version" =
      pure document.version := by
    apply Dump.textAt_of_member?
    simp [Dump.member?_known]
  have info : Dump.objectAt (Dump.membersOf document.toDump) "Info" =
      Dump.membersOf (Dump.ofInfo document.info) := by
    apply Dump.objectAt_of_member?
    have object : .object (Dump.membersOf (Dump.ofInfo document.info)) =
        Dump.ofInfo document.info := rfl
    rw [object]
    simp [fields, Dump.member?_known]
  have imports : Dump.objectsAt (Dump.membersOf document.toDump) "Imports" =
      document.imports.map fun file => Dump.known [("Value", .text file)] := by
    apply Dump.objectsAt_of_member? (fun file => Dump.objectOf [("Value", .text file)])
      fun _ => ⟨_, rfl⟩
    simp [fields, Dump.member?_known]
  have files : (document.imports.map fun file => Dump.known [("Value", .text file)]).mapM
      Dump.importedFile = .ok (document.imports.map id) :=
    Dump.mapM_map_eq_ok fun file _ => Dump.importedFile_value file
  have types : Dump.objectsAt (Dump.membersOf document.toDump) "Types" =
      document.types.map fun decl => Dump.membersOf (Dump.ofDecl decl) := by
    apply Dump.objectsAt_of_member? Dump.ofDecl fun decl => by cases decl <;> exact ⟨_, rfl⟩
    simp [fields, Dump.member?_known]
  have decls : (document.types.map fun decl => Dump.membersOf (Dump.ofDecl decl)).mapM
      Dump.typeDecl = .ok (document.types.map TypeDecl.dumped) :=
    Dump.mapM_map_eq_ok fun decl isType => Dump.typeDecl_ofDecl (classified.types decl isType)
  have service : Dump.objectAt (Dump.membersOf document.toDump) "Service" = Dump.known
      [("Name", .text document.service.name),
       ("Groups", .list (document.service.groups.map Dump.ofGroup))] := by
    apply Dump.objectAt_of_member?
    simp [fields, Dump.member?_known, Dump.objectOf_eq]
  have object : document.toDump = .object (Dump.membersOf document.toDump) := rfl
  rw [object, Dump.document, head, version, info, Dump.info_ofInfo, imports, files, types, decls,
    service, Dump.service_ofService classified.routes, List.map_id]
  rfl

/-- What has no place in a dump has none in the normal form either. -/
theorem ofDocument_dumped (document : Document) (source : Option Path) :
    Spec.ofDocument (document.dumped source) = Spec.ofDocument document := by
  have structs : (document.types.map TypeDecl.dumped).filterMap Spec.Struct.ofDecl? =
      document.types.filterMap Spec.Struct.ofDecl? := by
    rw [List.filterMap_map]
    congr 1
    funext decl
    cases decl <;> rfl
  have routes (group : RouteGroup) :
      (group.dumped.routes.map Spec.Route.ofRoute) = group.routes.map Spec.Route.ofRoute := by
    rw [RouteGroup.dumped, List.map_map]
    rfl
  have allRoutes : ((document.service.groups.map RouteGroup.dumped).flatMap (·.routes)).map
      Spec.Route.ofRoute = (document.service.groups.flatMap (·.routes)).map Spec.Route.ofRoute := by
    simp only [List.map_flatMap, List.flatMap_map, routes]
  have server : (document.service.groups.map RouteGroup.dumped).foldl Spec.Server.after {} =
      document.service.groups.foldl Spec.Server.after {} := List.foldl_map
  simp only [Spec.ofDocument, Spec.Service.ofService, dumped, structs, allRoutes, server]

end Document

namespace Document

/-- The types of every description are classified. -/
theorem classified_of_parse {text : Source} {document : Document}
    (read : parse text = .ok document) : document.Classified :=
  classified_of_items fun item member => (sound_items read item member).1

/-- The dump of a document whose types are classified is loaded as that document, up to what
has no place in a dump; and for every description that can be read, the dump leads to the
same normal form. -/
theorem load_toDump (source : Option Path) :
    (∀ document : Document, document.Classified →
      Dump.document document.toDump source = .ok (document.dumped source) ∧
      Spec.ofDocument (document.dumped source) = Spec.ofDocument document) ∧
    ∀ (text : Source) (document : Document), parse text = .ok document →
      ∃ loaded, Dump.document document.toDump source = .ok loaded ∧
        Spec.ofDocument loaded = Spec.ofDocument document := by
  constructor
  · intro document classified
    exact ⟨document_toDump classified source, ofDocument_dumped document source⟩
  · intro text document read
    have classified := classified_of_parse read
    exact ⟨_, document_toDump classified source, ofDocument_dumped document source⟩

/-- Types nested in each other come back, an empty annotation is told from none, and another
name for a type stands for itself. -/
theorem load_toDump_nested :
    let body : TypeExpr := .arrayOf [] (.mapOf (.ofName "string") (.pointerTo (.ofName "any")))
    let route : Route :=
      { handler := "h", method := "get", path := "/p", request := some body, comment := "// c",
        server := some .empty }
    let document : Document :=
      { types := [.alias "t" (some (.ofName "int")) []]
        service := { name := "s", groups := [{ routes := [route] }] } }
    let loaded : Document :=
      { types := [.alias "t" (some (.named "t")) []]
        service := { name := "s", groups := [{ routes := [{ route with comment := [] }] }] } }
    let text : Source := ⟨Path.ofString "a.api", "type t []*any".toList⟩
    document.Classified ∧ Dump.document document.toDump none = .ok loaded ∧
      ∃ read again, parse text = .ok read ∧ Dump.document read.toDump none = .ok again ∧
        Spec.ofDocument again = Spec.ofDocument read := by
  intro body route document loaded text
  have classified : document.Classified := by
    refine ⟨?_, ?_⟩
    · simp only [document, List.forall_mem_singleton]
      intro type same
      cases same
      exact (TypeExpr.sound_ofName (by decide) (by decide)).classified
    · simp only [document, List.forall_mem_singleton]
      refine ⟨?_, nofun⟩
      intro type same
      cases same
      exact (TypeExpr.sound_ofName (by decide) (by decide)).classified
  have restored := ((load_toDump none).1 document classified).1
  have read : parse text = .ok
      { types := [.alias "t" (some (.arrayOf [] (.pointerTo (.ofName "any")))) []]
        source := some (Path.ofString "a.api") } := by
    decide +kernel
  obtain ⟨again, reloaded, same⟩ := (load_toDump none).2 text _ read
  have leaf : TypeExpr.leaf "t" = .named "t" := by decide
  refine ⟨classified, ?_, _, again, read, reloaded, same⟩
  rw [restored]
  simp only [document, dumped, loaded, List.map_cons, List.map_nil, TypeDecl.dumped, leaf]
  rfl

end Document

end ApiDescription
