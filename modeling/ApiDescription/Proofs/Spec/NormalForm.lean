import Mathlib.Data.List.Forall2
import Mathlib.Data.List.Nodup
import ApiDescription.Proofs.OrderedMap
import ApiDescription.Proofs.TagSearch
import ApiDescription.Spec.OfDocument

/-!
# What the normal form keeps

The normal form of a document has one entry for each struct, member and route, in the order of
the document. Groups are gone from it: what is left of them is the order of their routes and the
settings of the last annotated one. Where a group begins that has no annotation, and where
another name for a type stands, can therefore not be seen in it.
-/

namespace ApiDescription

/-- Whether a declaration declares a struct. -/
def TypeDecl.isStruct : TypeDecl → Bool
  | .struct .. => true
  | .alias .. => false

/-- A document with other route groups. -/
def Document.withGroups (document : Document) (groups : List RouteGroup) : Document :=
  { document with service := { document.service with groups } }

/-- The text that properties have under a key; the empty text if they do not have the key. -/
def OrderedMap.HasText (properties : Properties) (key : String) (text : Text) : Prop :=
  (Text.ofString key, text) ∈ properties.entries ∨
    (Text.ofString key ∉ properties.entries.map Prod.fst ∧ text = [])

/-- The text under a key is what the properties have there. -/
theorem OrderedMap.hasText_text (properties : Properties) (key : String) :
    properties.HasText key (properties.text (Text.ofString key)) := by
  rw [text]
  cases found : properties.get? (Text.ofString key) with
  | some value => exact .inl (get?_eq_some_iff.mp found)
  | none =>
    refine .inr ⟨fun member => ?_, rfl⟩
    obtain ⟨entry, isEntry, same⟩ := List.mem_map.mp member
    rw [get?_eq_some_iff.mpr (show (Text.ofString key, entry.2) ∈ _ from same ▸ isEntry)] at found
    cases found

namespace Spec

/-- The metadata of an info block: what its properties have under the names, or, if it has no
properties, its single fields, where there is no date. -/
structure Metadata.Shows (metadata : Metadata) (info : Info) : Prop where
  properties : metadata.properties = info.properties
  named : info.properties.entries ≠ [] →
    info.properties.HasText "title" metadata.title ∧
    info.properties.HasText "desc" metadata.desc ∧
    info.properties.HasText "author" metadata.author ∧
    info.properties.HasText "date" metadata.date ∧
    info.properties.HasText "version" metadata.version ∧
    info.properties.HasText "email" metadata.email
  single : info.properties.entries = [] →
    metadata.title = info.title ∧ metadata.desc = info.desc ∧ metadata.author = info.author ∧
    metadata.date = [] ∧ metadata.version = info.version ∧ metadata.email = info.email

/-- A field says what its member says. It is optional if the entries of the tag mark it so, which
are listed in one way. -/
structure Field.Shows (field : Field) (member : Member) : Prop where
  name : field.name = member.name
  type : field.type = member.type.name
  tag : field.tag = member.tag
  comment : field.comment = member.comment
  docs : field.docs = member.docs
  embedded : field.embedded = member.embedded
  optional : ∃ pairs, (∀ other, Tag.Lists member.tag other ↔ other = pairs) ∧
    (field.optional = true ↔ Tag.Marks pairs)

/-- A struct says what its declaration says, and has one field for each member. What no declaration
can say is empty. -/
def Struct.Shows (struct : Struct) : TypeDecl → Prop
  | .struct name members docs =>
    struct.name = name ∧ struct.rawName = name ∧ struct.docs = docs ∧
      List.Forall₂ Field.Shows struct.fields members ∧
      struct.package = [] ∧ struct.typeName = [] ∧ struct.enums = .empty
  | .alias .. => False

/-- An import names its file, and nothing that the file declares. -/
def Import.Shows (imported : Import) (file : Text) : Prop :=
  imported.value = file ∧ imported.asPackage = [] ∧ imported.types = []

/-- The properties of a `@doc` annotation with its text as their summary: in the place of an
older summary, or behind the other properties. -/
structure Summarizes (doc : Properties) (note : DocNote) : Prop where
  silent : note.text = [] → doc = note.properties.getD .empty
  behind : note.text ≠ [] →
    Text.ofString "summary" ∉ (note.properties.getD .empty).entries.map Prod.fst →
    doc.entries = (note.properties.getD .empty).entries ++ [(Text.ofString "summary", note.text)]
  inPlace : ∀ before old after, note.text ≠ [] →
    (note.properties.getD .empty).entries = before ++ (Text.ofString "summary", old) :: after →
    doc.entries = before ++ (Text.ofString "summary", note.text) :: after

/-- A route says what the route of the document says. -/
structure Route.Shows (route : Route) (source : ApiDescription.Route) : Prop where
  handler : route.handler = source.handler
  method : route.method = source.method
  path : route.path = source.path
  request : route.request = (source.request.map TypeExpr.name).getD []
  response : route.response = (source.response.map TypeExpr.name).getD []
  doc : Summarizes route.doc source.doc
  docs : route.docs = source.docs
  server : route.server = source.server.getD .empty

/-- The settings of an annotation. Who may call stands under `auth`, or under the older name `jwt`
if that has no text; the names of the middleware are what stands between the commas, without the
blanks around it and where anything is left. -/
structure Server.Shows (server : Server) (properties : Properties) : Prop where
  group : properties.HasText "group" server.group
  pathPrefix : properties.HasText "prefix" server.pathPrefix
  timeout : properties.HasText "timeout" server.timeout
  auth : ∃ auth jwt, properties.HasText "auth" auth ∧ properties.HasText "jwt" jwt ∧
    server.auth = if auth = [] then jwt else auth
  middleware : ∃ parts : List Text,
    properties.HasText "middleware" ([.char ','].intercalate parts) ∧
    (∀ part ∈ parts, .char ',' ∉ part) ∧
    server.middleware = (parts.map Text.trim).filter (· ≠ [])

/-- A service has the routes of all groups and the settings of the last annotated group. An
annotation without properties counts, too. -/
structure Service.Shows (service : Service) (source : ApiDescription.Service) : Prop where
  name : service.name = source.name
  routes : List.Forall₂ Route.Shows service.routes (source.groups.flatMap (·.routes))
  plain : (∀ group ∈ source.groups, group.server = none) → service.server = {}
  annotated : ∀ before group after properties, source.groups = before ++ group :: after →
    group.server = some properties → (∀ later ∈ after, later.server = none) →
    service.server.Shows properties

/-- A spec that says what a document says, each thing once and in its order. -/
structure Shows (spec : Spec) (document : Document) : Prop where
  version : spec.version = document.version
  info : spec.info.Shows document.info
  imports : List.Forall₂ Import.Shows spec.imports document.imports
  types : List.Forall₂ Struct.Shows spec.types (document.types.filter TypeDecl.isStruct)
  service : ∃ service, spec.services = [service] ∧ service.Shows document.service

/-- The metadata show the info block they are made of. -/
theorem Metadata.shows_ofInfo (info : Info) : (ofInfo info).Shows info := by
  unfold ofInfo
  split
  · next isEmpty =>
    have none : info.properties.entries = [] := List.isEmpty_iff.mp isEmpty
    exact ⟨OrderedMap.ext_entries none.symm, fun some => absurd none some,
      fun _ => ⟨rfl, rfl, rfl, rfl, rfl, rfl⟩⟩
  · next some =>
    have text := info.properties.hasText_text
    exact ⟨rfl, fun _ => ⟨text _, text _, text _, text _, text _, text _⟩,
      fun none => absurd (List.isEmpty_iff.mpr none) some⟩

/-- A field shows the member it is made of. -/
theorem Field.shows_ofMember (member : Member) : (ofMember member).Shows member where
  name := rfl
  type := rfl
  tag := rfl
  comment := rfl
  docs := rfl
  embedded := rfl
  optional := Tag.exists_lists_marks member

/-- The structs of a document are those of its declarations that declare one. -/
theorem Struct.shows_ofDecls (decls : List TypeDecl) :
    List.Forall₂ Shows (decls.filterMap ofDecl?) (decls.filter TypeDecl.isStruct) := by
  induction decls with
  | nil => exact .nil
  | cons decl decls inductionHypothesis =>
    cases decl with
    | «struct» name members docs =>
      refine .cons ⟨rfl, rfl, rfl, ?_, rfl, rfl, rfl⟩ inductionHypothesis
      rw [List.forall₂_map_left_iff, List.forall₂_same]
      exact fun member _ => Field.shows_ofMember member
    | «alias» name target docs => exact inductionHypothesis

/-- In the properties of a `@doc` annotation the text is the summary. -/
theorem summarizes_docProperties (note : DocNote) : Summarizes (docProperties note) note where
  silent := fun silent => if_pos silent
  behind := fun speaks fresh => by
    rw [docProperties, if_neg speaks]
    exact OrderedMap.write_of_not_mem fresh
  inPlace := fun before old after speaks split => by
    have distinct := (note.properties.getD .empty).distinct
    rw [split, List.map_append, List.map_cons, List.nodup_middle, List.nodup_cons] at distinct
    have first : Text.ofString "summary" ∉ before.map Prod.fst := fun found =>
      distinct.1 (List.mem_append_left _ found)
    rw [docProperties, if_neg speaks]
    exact (congrArg (OrderedMap.write _ _) split).trans (OrderedMap.write_of_mem first)

/-- A route of the normal form shows the route it is made of. -/
theorem Route.shows_ofRoute (route : ApiDescription.Route) : (ofRoute route).Shows route where
  handler := rfl
  method := rfl
  path := rfl
  request := rfl
  response := rfl
  doc := summarizes_docProperties route.doc
  docs := rfl
  server := rfl

/-- The settings show the annotation they are made of. -/
theorem Server.shows_ofProperties (properties : Properties) :
    (ofProperties properties).Shows properties where
  group := properties.hasText_text _
  pathPrefix := properties.hasText_text _
  timeout := properties.hasText_text _
  auth := ⟨_, _, properties.hasText_text _, properties.hasText_text _, rfl⟩
  middleware := by
    refine ⟨Text.splitOn (.char ',') (properties.text "middleware"), ?_,
      fun part => Text.not_mem_of_mem_splitOn, rfl⟩
    rw [Text.intercalate_splitOn]
    exact properties.hasText_text _

/-- Groups without an annotation leave the settings as they are. -/
theorem Server.foldl_after_of_none {groups : List RouteGroup}
    (plain : ∀ group ∈ groups, group.server = none) (server : Server) :
    groups.foldl after server = server := by
  induction groups with
  | nil => rfl
  | cons group groups inductionHypothesis =>
    rw [List.forall_mem_cons] at plain
    have stays : server.after group = server := by rw [after, plain.1]
    rw [List.foldl_cons, stays, inductionHypothesis plain.2]

/-- The service of the normal form shows the service it is made of. -/
theorem Service.shows_ofService (service : ApiDescription.Service) :
    (ofService service).Shows service where
  name := rfl
  routes := by
    rw [ofService, List.forall₂_map_left_iff, List.forall₂_same]
    exact fun route _ => Route.shows_ofRoute route
  plain := fun plain => Server.foldl_after_of_none plain {}
  annotated := by
    intro before group after properties split given plain
    have behind (server : Server) : server.after group = Server.ofProperties properties := by
      rw [Server.after, given]
    rw [ofService, split, List.foldl_append, List.foldl_cons, behind,
      Server.foldl_after_of_none plain]
    exact Server.shows_ofProperties properties

/-- Of its groups the normal form of a document shows only their routes in order and the settings
behind all of them. -/
theorem ofDocument_withGroups {document : Document} {groups : List RouteGroup}
    (settings : groups.foldl Server.after {} = document.service.groups.foldl Server.after {})
    (routes : groups.flatMap (·.routes) = document.service.groups.flatMap (·.routes)) :
    ofDocument (document.withGroups groups) = ofDocument document := by
  simp only [ofDocument, Document.withGroups, Service.ofService, settings, routes]

/-- The normal form of a document says what the document says, each thing once and in its order.
It stays the same when a group is split in two, the second of them without an annotation, and
with one more empty group or one more name for a type anywhere. -/
theorem ofDocument_shows (document : Document) :
    (ofDocument document).Shows document ∧
      (∀ before after server first second,
        document.service.groups = before ++ ⟨server, first ++ second⟩ :: after →
        ofDocument (document.withGroups (before ++ ⟨server, first⟩ :: ⟨none, second⟩ :: after)) =
          ofDocument document) ∧
      (∀ before after, document.service.groups = before ++ after →
        ofDocument (document.withGroups (before ++ ⟨none, []⟩ :: after)) = ofDocument document) ∧
      ∀ before after name target docs, document.types = before ++ after →
        ofDocument { document with types := before ++ .alias name target docs :: after } =
          ofDocument document := by
  refine ⟨?_, ?_, ?_, ?_⟩
  · constructor
    case version => rfl
    case info => exact Metadata.shows_ofInfo document.info
    case imports =>
      rw [ofDocument, List.forall₂_map_left_iff, List.forall₂_same]
      exact fun file _ => ⟨rfl, rfl, rfl⟩
    case types => exact Struct.shows_ofDecls document.types
    case service => exact ⟨_, rfl, Service.shows_ofService document.service⟩
  · intro before after server first second split
    apply ofDocument_withGroups
    · rw [split, List.foldl_append, List.foldl_append]
      rfl
    · simp [split]
  · intro before after split
    apply ofDocument_withGroups
    · rw [split, List.foldl_append, List.foldl_append]
      rfl
    · simp [split]
  · intro before after name target docs split
    simp only [ofDocument, split, List.filterMap_append]
    rfl

/-- A group with two routes behind another annotated one, and a group without an annotation: its
settings are those of the service, and it can be split. One of two tags has the option, the other
has it as a name. -/
theorem ofDocument_shows_regrouped :
    let settings : Properties := .ofList
      [("jwt", "Jwt"), ("middleware", " Log ,,Trace"), ("auth", ""), ("prefix", "/v1")]
    let earlier : RouteGroup := ⟨some (.ofList [("auth", "Basic"), ("group", "g")]), []⟩
    let ping : ApiDescription.Route :=
      { handler := "ping", doc := ⟨some (.ofList [("summary", "a"), ("x", "b")]), "c"⟩ }
    let pong : ApiDescription.Route := { handler := "pong" }
    let document : Document :=
      { types := [.alias "Id" none [], .struct "User"
          [{ name := "id", type := .named "int", tag := "\x60json:\"id, optional\"\x60" },
           { name := "no", type := .named "int", tag := "\x60json:\"optional\"\x60" }] []]
        service := ⟨"s", [earlier, ⟨some settings, [ping, pong]⟩, ⟨none, [ping]⟩]⟩ }
    (ofDocument document).Shows document ∧
    ofDocument (document.withGroups
      [earlier, ⟨some settings, [ping]⟩, ⟨none, [pong]⟩, ⟨none, [ping]⟩]) = ofDocument document ∧
    (ofDocument document).types.map (·.fields.map (·.optional)) = [[true, false]] ∧
    (ofDocument document).services.map (·.server) =
      [{ pathPrefix := "/v1", auth := "Jwt", middleware := ["Log", "Trace"] }] ∧
    (ofDocument document).services.map (·.routes.map (·.handler)) =
      [["ping", "pong", "ping"].map Text.ofString] := by
  intro settings earlier ping pong document
  obtain ⟨shows, split, -, -⟩ := ofDocument_shows document
  exact ⟨shows, split [earlier] [⟨none, [ping]⟩] (some settings) [ping] [pong] rfl,
    by decide +kernel, by decide +kernel, by decide +kernel⟩

end Spec

end ApiDescription
