import ApiDescription.Proofs.Dump.RoundTrip
import ApiDescription.Proofs.OrderedMap

/-!
# Which dumps are accepted

A dump has no schema, and most of what may stand in it is read in one way or another: what is
absent or empty reads as empty, a container of another kind has nothing in it, and keys that are
not known are passed over. `documentOf` is what a dump says in this sense; nothing in it can fail.

A dump is rejected only for what stands at a place that is looked at. `Faulty` names these places,
record by record, and a record is faulty if a record inside it is. Whatever a dump holds, and
however deeply, it is rejected exactly if it is faulty, and otherwise read as it says. A lone
surrogate makes no text faulty.
-/

namespace ApiDescription

namespace Checked

variable {α β : Type} {fits other : Prop} {value : α}

/-- A checked value is valid exactly under a condition, and then it is this one. -/
def Accepts (checked : Checked α) (fits : Prop) (value : α) : Prop :=
  ∀ found, checked = .valid found ↔ fits ∧ found = value

theorem accepts_pure (value : α) : (pure value : Checked α).Accepts True value := by
  intro found
  simp [pure, eq_comm]

theorem Accepts.congr {checked : Checked α} (accepts : checked.Accepts other value)
    (same : fits ↔ other) : checked.Accepts fits value := by
  intro found
  rw [accepts found, same]

theorem accepts_misfit (kind : Misfit) (value : α) : (misfit kind).Accepts False value := by
  intro found
  simp [misfit]

/-- The parts of a record have to fit one by one. -/
theorem Accepts.seq {function : Checked (α → β)} {argument : Checked α} {apply : α → β}
    (first : function.Accepts fits apply) (second : argument.Accepts other value) :
    (function <*> argument).Accepts (fits ∧ other) (apply value) := by
  intro found
  constructor
  · intro combined
    change Checked.seq function (fun _ => argument) = _ at combined
    cases function <;> cases argument <;>
      simp only [Checked.seq, Checked.valid.injEq, reduceCtorEq] at combined
    obtain ⟨holds, rfl⟩ := (first _).mp rfl
    obtain ⟨otherHolds, rfl⟩ := (second _).mp rfl
    exact ⟨⟨holds, otherHolds⟩, combined.symm⟩
  · rintro ⟨⟨holds, otherHolds⟩, rfl⟩
    rw [(first _).mpr ⟨holds, rfl⟩, (second _).mpr ⟨otherHolds, rfl⟩]
    rfl

theorem Accepts.map {checked : Checked α} (accepts : checked.Accepts fits value) (f : α → β) :
    (f <$> checked).Accepts fits (f value) := by
  have applied := (accepts_pure f).seq accepts
  simp only [true_and] at applied
  exact applied

theorem Accepts.under {checked : Checked α} (accepts : checked.Accepts fits value) (step : Step) :
    (checked.under step).Accepts fits value := by
  intro found
  rw [← accepts found]
  cases checked <;> simp [Checked.under]

end Checked

/-- The text that a value is, if it is one. -/
def Json.text? : Json → Option Text
  | .text value => some value
  | _ => none

namespace Dump

open Json (Members)

/-- The kinds of records in a dump. -/
inductive Record where
  | document | version | info | importedFile | decl | type | member | service | group | route
  | server | note
  deriving DecidableEq, Repr

namespace Record

/-- The keys of a record under which texts are looked for. -/
@[simp] def textKeys : Record → List String
  | version => ["Version"]
  | info => ["Title", "Desc", "Author", "Version", "Email"]
  | importedFile => ["Value"]
  | decl | type => ["RawName"]
  | member => ["Name", "Tag", "Comment"]
  | service => ["Name"]
  | route => ["Handler", "Method", "Path"]
  | note => ["Text"]
  | document | group | server => []

/-- Whether a record has a map of texts. -/
@[simp] def hasProperties : Record → Bool
  | info | server | note => true
  | _ => false

/-- Whether a record has a list of docs. -/
@[simp] def hasDocs : Record → Bool
  | decl | member | route => true
  | _ => false

/-- The object under a key, if there is one, as the type it stands for. -/
def bodyAt (members : Members) (key : Text) : List (Record × Members) :=
  match Json.member? members key with
  | some (.object body) => [(type, body)]
  | _ => []

/-- The records inside a record. A type has another one inside it under `Value` or else under
`Type`, and another name for a type is looked at as a type itself. -/
@[simp] def parts : Record → Members → List (Record × Members)
  | document, members =>
    [(version, objectAt members "Syntax"), (info, objectAt members "Info")] ++
      (objectsAt members "Imports").map (importedFile, ·) ++
      (objectsAt members "Types").map (decl, ·) ++ [(service, objectAt members "Service")]
  | decl, members =>
    if (Json.member? members "Members").isSome then (objectsAt members "Members").map (member, ·)
    else [(type, members)]
  | type, members =>
    match Json.member? members "Value", Json.member? members "Type" with
    | some value, _ => [(type, membersOf value)]
    | none, some target => [(type, membersOf target)]
    | none, none => []
  | member, members => [(type, objectAt members "Type")]
  | service, members => (objectsAt members "Groups").map (group, ·)
  | group, members =>
    (server, objectAt members "Annotation") :: (objectsAt members "Routes").map (route, ·)
  | route, members =>
    bodyAt members "RequestType" ++ bodyAt members "ResponseType" ++
      [(note, objectAt members "AtDoc"), (server, objectAt members "AtServerAnnotation")]
  | version, _ | info, _ | importedFile, _ | server, _ | note, _ => []

end Record

/-- What is wrong with a record, or with a record inside it: a value that is not empty where a text
belongs, and is none; a property that is no text; the key of a map that is no text; and an integer
among the docs that is too long to be shown. -/
inductive Faulty : Record → Members → Prop where
  | text {record : Record} {members : Members} {key : String} {value : Json}
    (isKey : key ∈ record.textKeys) (found : Json.member? members key = some value)
    (filled : isEmptyValue value = false) (noText : value.text? = none) : Faulty record members
  | property {record : Record} {members : Members} {key : Text} {value : Json}
    (isKey : record.hasProperties = true)
    (found : Json.member? (objectAt members "Properties") key = some value)
    (noText : value.text? = none) : Faulty record members
  | mapKey {members : Members} {key : Json} (isMap : (Json.member? members "Value").isSome = true)
    (found : Json.member? members "Key" = some key) (noText : key.text? = none) :
    Faulty .type members
  | doc {record : Record} {members : Members} {items : List Json} {item : Json}
    (isKey : record.hasDocs = true) (found : Json.member? members "Docs" = some (.list items))
    (among : item ∈ items) (tooLong : item.isShowable = false) : Faulty record members
  | part {record inner : Record} {members innerMembers : Members}
    (inside : (inner, innerMembers) ∈ record.parts members) (faulty : Faulty inner innerMembers) :
    Faulty record members

/-- A text stands under a key, or a value that is empty or absent. -/
def FitsText (members : Members) (key : String) : Prop :=
  ∀ value, Json.member? members key = some value → isEmptyValue value = false →
    value.text?.isSome = true

/-- All values of a map are texts. -/
def FitsTexts (members : Members) : Prop :=
  ∀ key value, Json.member? members key = some value → value.text?.isSome = true

/-- All items among the docs can be shown. -/
def FitsDocs (members : Members) : Prop :=
  ∀ items, Json.member? members "Docs" = some (.list items) → ∀ item ∈ items, item.isShowable = true

/-- All of several records are sound. -/
def AllSound (parts : List (Record × Members)) : Prop := ∀ part ∈ parts, ¬Faulty part.1 part.2

section AllSound

variable {record : Record} {members : Members} {parts others : List (Record × Members)}

@[simp] theorem allSound_nil : AllSound [] := nofun

@[simp] theorem allSound_cons :
    AllSound ((record, members) :: parts) ↔ ¬Faulty record members ∧ AllSound parts :=
  List.forall_mem_cons

@[simp] theorem allSound_append : AllSound (parts ++ others) ↔ AllSound parts ∧ AllSound others :=
  List.forall_mem_append

@[simp] theorem allSound_map {items : List Members} :
    AllSound (items.map (record, ·)) ↔ ∀ item ∈ items, ¬Faulty record item :=
  List.forall_mem_map

end AllSound

/-- A record is sound if its own places fit, and all records inside it are sound. -/
theorem not_faulty_iff {record : Record} {members : Members} :
    ¬Faulty record members ↔
      (∀ key ∈ record.textKeys, FitsText members key) ∧
      (record.hasProperties = true → FitsTexts (objectAt members "Properties")) ∧
      (record = .type → (Json.member? members "Value").isSome = true →
        ∀ key, Json.member? members "Key" = some key → key.text?.isSome = true) ∧
      (record.hasDocs = true → FitsDocs members) ∧ AllSound (record.parts members) := by
  constructor
  · intro sound
    refine ⟨fun key isKey value found filled => ?_, fun isKey key value found => ?_,
      fun isType isMap key found => ?_, fun isKey items found item among => ?_,
      fun part inside faulty => sound (.part inside faulty)⟩
    · exact Option.isSome_iff_ne_none.mpr fun noText => sound (.text isKey found filled noText)
    · exact Option.isSome_iff_ne_none.mpr fun noText => sound (.property isKey found noText)
    · subst isType
      exact Option.isSome_iff_ne_none.mpr fun noText => sound (.mapKey isMap found noText)
    · exact Bool.not_eq_false _ ▸ fun tooLong => sound (.doc isKey found among tooLong)
  · rintro ⟨texts, properties, mapKey, docs, parts⟩ faulty
    cases faulty with
    | text isKey found filled noText =>
      exact Option.isSome_iff_ne_none.mp (texts _ isKey _ found filled) noText
    | property isKey found noText =>
      exact Option.isSome_iff_ne_none.mp (properties isKey _ _ found) noText
    | mapKey isMap found noText =>
      exact Option.isSome_iff_ne_none.mp (mapKey rfl isMap _ found) noText
    | doc isKey found among tooLong =>
      exact absurd (docs isKey _ found _ among) (by simp [tooLong])
    | part inside faulty => exact parts _ inside faulty

/-- The text under a key. Whatever is no text reads as the empty text. -/
def textOf (members : Members) (key : String) : Text :=
  ((Json.member? members key).bind Json.text?).getD []

/-- A map of texts as it is read, the last value of each key. -/
def textsOf (members : Members) : Properties :=
  OrderedMap.ofList
    ((OrderedMap.ofList members).entries.map fun entry => (entry.1, entry.2.text?.getD []))

/-- The docs, shown as texts. -/
def docsOf (members : Members) : List Text :=
  match Json.member? members "Docs" with
  | some (.list items) => items.map Json.display
  | _ => []

/-- The info block as it is read. -/
def infoOf (members : Members) : Info where
  title := textOf members "Title"
  desc := textOf members "Desc"
  author := textOf members "Author"
  version := textOf members "Version"
  email := textOf members "Email"
  properties := textsOf (objectAt members "Properties")

/-- A type as it is read. -/
def typeOf : Json → TypeExpr
  | .object members =>
    match _ : Json.member? members "Value" with
    | some valueType =>
      match Json.member? members "Key" with
      | some key => .map (textOf members "RawName") (key.text?.getD []) (typeOf valueType)
      | none => .array (textOf members "RawName") (typeOf valueType)
    | none =>
      match _ : Json.member? members "Type" with
      | some targetType => .pointer (textOf members "RawName") (typeOf targetType)
      | none =>
        if (Json.member? members "Members").isSome then .named (textOf members "RawName")
        else .leaf (textOf members "RawName")
  | _ => .named []
termination_by json => sizeOf json
decreasing_by
  all_goals
    have := sizeOf_member?_lt ‹Json.member? members _ = some _›
    simp
    omega

/-- A member of a struct as it is read. -/
def memberOf (members : Members) : Member where
  name := textOf members "Name"
  type := typeOf (.object (objectAt members "Type"))
  tag := textOf members "Tag"
  comment := textOf members "Comment"
  docs := docsOf members
  embedded :=
    match Json.member? members "IsInline" with
    | some value => !isEmptyValue value
    | none => false

/-- A declaration as it is read. -/
def declOf (members : Members) : TypeDecl :=
  if (Json.member? members "Members").isSome then
    .struct (textOf members "RawName") ((objectsAt members "Members").map memberOf) (docsOf members)
  else .alias (textOf members "RawName") (some (typeOf (.object members))) (docsOf members)

/-- Properties that may be missing, as they are read. -/
def annotationOf (members : Members) : Option Properties :=
  match Json.member? members "Properties" with
  | none | some .null => none
  | some value => some (textsOf (membersOf value))

/-- The type of a body as it is read. -/
def bodyOf (members : Members) (key : String) : Option TypeExpr :=
  match Json.member? members key with
  | some (.object body) => some (typeOf (.object body))
  | _ => none

/-- A route as it is read. -/
def routeOf (members : Members) : Route where
  handler := textOf members "Handler"
  method := textOf members "Method"
  path := textOf members "Path"
  request := bodyOf members "RequestType"
  response := bodyOf members "ResponseType"
  doc :=
    { properties := annotationOf (objectAt members "AtDoc")
      text := textOf (objectAt members "AtDoc") "Text" }
  docs := docsOf members
  server := annotationOf (objectAt members "AtServerAnnotation")

/-- A group of routes as it is read. -/
def groupOf (members : Members) : RouteGroup where
  server := annotationOf (objectAt members "Annotation")
  routes := (objectsAt members "Routes").map routeOf

/-- The service as it is read. -/
def serviceOf (members : Members) : Service where
  name := textOf members "Name"
  groups := (objectsAt members "Groups").map groupOf

/-- A document as it is read from a dump, which comes from a file if there is one. -/
def documentOf (members : Members) (source : Option Path) : Document where
  version := textOf (objectAt members "Syntax") "Version"
  info := infoOf (objectAt members "Info")
  imports := (objectsAt members "Imports").map (textOf · "Value")
  types := (objectsAt members "Types").map declOf
  service := serviceOf (objectAt members "Service")
  source

section Accepting

variable {α β : Type} {sound other : Prop} {value : α}

/-- A part of a dump is accepted exactly under a condition, and then read as this. -/
def Accepts (result : Result α) (sound : Prop) (value : α) : Prop :=
  ∀ found, result = .ok found ↔ sound ∧ found = value

theorem Accepts.congr {result : Result α} (accepts : Accepts result other value)
    (same : sound ↔ other) : Accepts result sound value := by
  intro found
  rw [accepts found, same]

theorem accepts_ok (value : α) : Accepts (.ok value) True value := by
  intro found
  simp [eq_comm]

theorem accepts_record {checked : Checked α} (accepts : checked.Accepts sound value) :
    Accepts (record checked) sound value := by
  intro found
  rw [← accepts found]
  cases checked <;> simp [record]

/-- What is read in turn has to be accepted in turn. -/
theorem Accepts.bind {first : Result α} {second : α → Result β} {last : β}
    (accepts : Accepts first sound value) (then' : Accepts (second value) other last) :
    Accepts (first >>= second) (sound ∧ other) last := by
  intro found
  constructor
  · intro read
    cases result : first with
    | error fault =>
      rw [result] at read
      cases read
    | ok middle =>
      obtain ⟨holds, rfl⟩ := (accepts middle).mp result
      rw [result] at read
      obtain ⟨otherHolds, rfl⟩ := (then' found).mp read
      exact ⟨⟨holds, otherHolds⟩, rfl⟩
  · rintro ⟨⟨holds, otherHolds⟩, rfl⟩
    rw [(accepts value).mpr ⟨holds, rfl⟩]
    exact (then' _).mpr ⟨otherHolds, rfl⟩

theorem Accepts.map {result : Result α} (accepts : Accepts result sound value) (f : α → β) :
    Accepts (f <$> result) sound (f value) := by
  rw [map_eq_pure_bind]
  exact (accepts.bind (accepts_ok (f value))).congr (by simp)

/-- The records of a list are accepted if each of them is. -/
theorem accepts_mapM {read : α → Result β} {sound : α → Prop} {as : α → β} {items : List α}
    (accepts : ∀ item ∈ items, Accepts (read item) (sound item) (as item)) :
    Accepts (items.mapM read) (∀ item ∈ items, sound item) (items.map as) := by
  induction items with
  | nil =>
    refine (accepts_ok []).congr (by simp)
  | cons item items inductionHypothesis =>
    rw [List.forall_mem_cons] at accepts
    rw [List.mapM_cons, List.map_cons]
    have rest : Accepts (items.mapM read >>= fun others => pure (as item :: others)) _ _ :=
      (inductionHypothesis accepts.2).bind (accepts_ok (as item :: items.map as))
    refine (accepts.1.bind rest).congr ?_
    simp

end Accepting

variable {members : Members}

theorem accepts_checkText (value : Json) :
    value.checkText.Accepts (value.text?.isSome = true) (value.text?.getD []) := by
  cases value with
  | text value => exact (Checked.accepts_pure value).congr (by simp [Json.text?])
  | _ => exact (Checked.accepts_misfit _ _).congr (by simp [Json.text?])

/-- An empty value reads as the empty text. -/
theorem text?_of_isEmptyValue {value : Json} (empty : isEmptyValue value = true) :
    value.text?.getD [] = [] := by
  cases value <;> simp_all [Json.text?, isEmptyValue]

theorem accepts_textAt (members : Members) (key : String) :
    (textAt members key).Accepts (FitsText members key) (textOf members key) := by
  unfold textAt FitsText textOf
  cases Json.member? members key with
  | none => exact (Checked.accepts_pure []).congr (by simp)
  | some value =>
    by_cases empty : isEmptyValue value = true
    · simp only [empty, if_true, Option.bind_some, text?_of_isEmptyValue empty]
      exact (Checked.accepts_pure []).congr (by simp [empty])
    · simp only [empty, Bool.false_eq_true, if_false, Option.bind_some]
      exact (accepts_checkText value).congr (by simp [empty])

theorem accepts_checkEntries (entries : Members) :
    (Json.checkEntries entries).Accepts (∀ entry ∈ entries, entry.2.text?.isSome = true)
      (entries.map fun entry => (entry.1, entry.2.text?.getD [])) := by
  induction entries with
  | nil => exact (Checked.accepts_pure []).congr (by simp)
  | cons entry rest inductionHypothesis =>
    obtain ⟨key, value⟩ := entry
    intro found
    rw [List.forall_mem_cons, Json.checkEntries]
    exact ((((accepts_checkText value).under _).map _).seq inductionHypothesis) found

/-- The value of a key is that of the map which its entries make. -/
theorem get?_ofList_members (members : Members) (key : Text) :
    (OrderedMap.ofList members).get? key = Json.member? members key := by
  rw [OrderedMap.get?_ofList, Json.member?]
  induction members.reverse with
  | nil => rfl
  | cons entry rest inductionHypothesis =>
    rw [OrderedMap.lookup_cons_eq_ite, inductionHypothesis, List.find?_cons]
    by_cases found : key = entry.1
    · simp [found]
    · simp [found, Ne.symm found]

theorem accepts_propertiesOf (members : Members) :
    (propertiesOf members).Accepts (FitsTexts members) (textsOf members) := by
  refine ((accepts_checkEntries (OrderedMap.ofList members).entries).map OrderedMap.ofList).congr ?_
  simp only [FitsTexts, ← get?_ofList_members, OrderedMap.get?_eq_some_iff, Prod.forall]

theorem accepts_textsAt (members : Members) :
    Accepts (textsAt members "Docs") (FitsDocs members) (docsOf members) := by
  have shown (item : Json) : Accepts (shownItem item) (item.isShowable = true) item.display := by
    unfold shownItem Json.display?
    by_cases showable : item.isShowable = true
    · simp only [showable, if_true]
      exact (accepts_ok _).congr (by simp)
    · simp [showable, Accepts]
  unfold textsAt FitsDocs docsOf
  rcases Json.member? members "Docs" with _ | value
  · exact (accepts_ok []).congr (by simp)
  · cases value with
    | list items => exact (accepts_mapM fun item _ => shown item).congr (by simp)
    | _ => exact (accepts_ok []).congr (by simp)

theorem accepts_field (members : Members) (key : String) (field : Text) :
    ((textAt members key).under (.key field)).Accepts (FitsText members key) (textOf members key) :=
  (accepts_textAt members key).under _

theorem not_fitsText {key : String} {value : Json}
    (found : Json.member? members key = some value) (filled : isEmptyValue value = false)
    (noText : value.text? = none) : ¬FitsText members key := fun fits =>
  absurd (fits value found filled) (by simp [noText])

/-- A name that cannot be compared is no text either. -/
theorem accepts_leafType (members : Members) :
    Accepts (leafType members ((textAt members "RawName").under (.key "raw_name")))
      (FitsText members "RawName") (.leaf (textOf members "RawName")) := by
  have compared : Accepts
      (record ((textAt members "RawName").under (.key "raw_name")) >>= fun name =>
        pure (if name = TypeExpr.emptyInterface then .interface name else TypeExpr.ofName name))
      (FitsText members "RawName" ∧ True) (.leaf (textOf members "RawName")) :=
    (accepts_record (accepts_field members "RawName" "raw_name")).bind (accepts_ok _)
  unfold leafType
  split
  · next item items found => simp [Accepts, not_fitsText found rfl rfl]
  · next item items found => simp [Accepts, not_fitsText found rfl rfl]
  · exact compared.congr (by simp)

theorem accepts_info (members : Members) :
    Accepts (info members) (¬Faulty .info members) (infoOf members) := by
  have fields :=
    ((accepts_field members "Title" "title").map Info.mk
      |>.seq (accepts_field members "Desc" "desc")
      |>.seq (accepts_field members "Author" "author")
      |>.seq (accepts_field members "Version" "version")
      |>.seq (accepts_field members "Email" "email")
      |>.seq ((accepts_propertiesOf (objectAt members "Properties")).under (.key "properties")))
  refine (accepts_record fields).congr ?_
  rw [not_faulty_iff]
  simp [and_assoc]

/-- What a type needs: its name has to fit, and so have the key of a map and the type inside it. -/
theorem not_faulty_type_iff :
    ¬Faulty .type members ↔ FitsText members "RawName" ∧
      ((Json.member? members "Value").isSome = true →
        ∀ key, Json.member? members "Key" = some key → key.text?.isSome = true) ∧
      AllSound (Record.type.parts members) := by
  rw [not_faulty_iff]
  simp

/-- What a type is follows from its keys. -/
theorem typeOf_object (members : Members) :
    typeOf (.object members) =
      match Json.member? members "Value", Json.member? members "Type" with
      | some inner, _ =>
        match Json.member? members "Key" with
        | some key => .map (textOf members "RawName") (key.text?.getD []) (typeOf inner)
        | none => .array (textOf members "RawName") (typeOf inner)
      | none, some inner => .pointer (textOf members "RawName") (typeOf inner)
      | none, none =>
        if (Json.member? members "Members").isSome then .named (textOf members "RawName")
        else .leaf (textOf members "RawName") := by
  rw [typeOf]
  split
  · next inner found => simp only [found]
  · next noValue =>
    split
    · next inner found => simp only [noValue, found]
    · next noType => simp only [noValue, noType]

/-- A type is accepted if it is sound. One that is not an object is read as if it were empty. -/
theorem accepts_typeExpr (json : Json) :
    Accepts (typeExpr json) (¬Faulty .type (membersOf json)) (typeOf json) := by
  fun_induction typeExpr json with
  | case1 members name inner value inductionHypothesis =>
    have named : name.Accepts (FitsText members "RawName") (textOf members "RawName") :=
      accepts_field members "RawName" "raw_name"
    rw [membersOf, not_faulty_type_iff, typeOf_object]
    simp only [Record.parts, value, Option.isSome_some, true_imp_iff]
    cases Json.member? members "Key" with
    | none =>
      have array := (named.map TypeExpr.array).seq (Checked.accepts_pure (typeOf inner))
      exact (inductionHypothesis.bind (accepts_record array)).congr (by simp [and_comm])
    | some key =>
      have map := (named.map TypeExpr.map).seq ((accepts_checkText key).under (.key "key"))
        |>.seq (Checked.accepts_pure (typeOf inner))
      exact (inductionHypothesis.bind (accepts_record map)).congr
        (by simp [and_comm, and_left_comm])
  | case2 members name noValue inner target inductionHypothesis =>
    have named : name.Accepts (FitsText members "RawName") (textOf members "RawName") :=
      accepts_field members "RawName" "raw_name"
    have pointer := (named.map TypeExpr.pointer).seq (Checked.accepts_pure (typeOf inner))
    rw [membersOf, not_faulty_type_iff, typeOf_object]
    simp only [Record.parts, noValue, target]
    exact (inductionHypothesis.bind (accepts_record pointer)).congr (by simp [and_comm])
  | case3 members name noValue noType isStruct =>
    have named : name.Accepts (FitsText members "RawName") (textOf members "RawName") :=
      accepts_field members "RawName" "raw_name"
    rw [membersOf, not_faulty_type_iff, typeOf_object]
    simp only [Record.parts, noValue, noType, isStruct, if_true]
    exact (accepts_record (named.map TypeExpr.named)).congr (by simp)
  | case4 members name noValue noType noStruct =>
    rw [membersOf, not_faulty_type_iff, typeOf_object]
    simp only [Record.parts, noValue, noType, noStruct]
    exact (accepts_leafType members).congr (by simp)
  | case5 json noObject =>
    have empty : membersOf json = [] := by
      cases json <;> simp_all [membersOf]
    have read : typeOf json = .named [] := by
      cases json <;> simp_all [typeOf]
    rw [empty, read, not_faulty_type_iff]
    exact (accepts_ok _).congr (by simp [Record.parts, FitsText, Json.member?])

/-- What is not an object is read like an object without keys. -/
theorem typeOf_membersOf (json : Json) : typeOf (.object (membersOf json)) = typeOf json := by
  have empty : typeOf (.object []) = .named [] := by
    rw [typeOf_object]
    rfl
  cases json <;> simp [membersOf, empty, typeOf]

theorem membersOf_getD (members : Members) (key : Text) :
    membersOf ((Json.member? members key).getD .null) = objectAt members key := by
  unfold objectAt
  cases Json.member? members key <;> rfl

theorem accepts_member (members : Members) :
    Accepts (member members) (¬Faulty .member members) (memberOf members) := by
  have type := accepts_typeExpr ((Json.member? members "Type").getD .null)
  rw [← typeOf_membersOf, membersOf_getD] at type
  have fields := (accepts_field members "Name" "name").map Member.mk
    |>.seq (Checked.accepts_pure (typeOf (.object (objectAt members "Type"))))
    |>.seq (accepts_field members "Tag" "tag")
    |>.seq (accepts_field members "Comment" "comment")
    |>.seq (Checked.accepts_pure (docsOf members))
    |>.seq (Checked.accepts_pure (memberOf members).embedded)
  refine (type.bind ((accepts_textsAt members).bind (accepts_record fields))).congr ?_
  rw [not_faulty_iff]
  simp [and_assoc, and_comm, and_left_comm]

theorem accepts_typeDecl (members : Members) :
    Accepts (typeDecl members) (¬Faulty .decl members) (declOf members) := by
  have name := accepts_field members "RawName" "raw_name"
  have docs := accepts_textsAt members
  rw [not_faulty_iff, typeDecl, declOf]
  by_cases isStruct : (Json.member? members "Members").isSome = true
  · have parts := accepts_mapM fun inner (_ : inner ∈ objectsAt members "Members") =>
      accepts_member inner
    have fields := (name.map TypeDecl.struct).seq
      (Checked.accepts_pure ((objectsAt members "Members").map memberOf))
      |>.seq (Checked.accepts_pure (docsOf members))
    simp only [isStruct, if_true]
    refine (docs.bind (parts.bind (accepts_record fields))).congr ?_
    simp [isStruct, and_comm, and_left_comm]
  · have target := accepts_typeExpr (.object members)
    have fields := (name.map TypeDecl.alias).seq
      (Checked.accepts_pure (some (typeOf (.object members))))
      |>.seq (Checked.accepts_pure (docsOf members))
    simp only [isStruct, Bool.false_eq_true, if_false]
    refine (docs.bind (target.bind (accepts_record fields))).congr ?_
    simp [isStruct, membersOf, and_assoc, and_comm, and_left_comm]

/-- Properties that are null or absent are none; others have to be texts. -/
theorem accepts_noteProperties (members : Members) :
    Checked.Accepts (noteProperties members) (FitsTexts (objectAt members "Properties"))
      (annotationOf members) := by
  have nothing : FitsTexts [] := fun key value found => nomatch found
  unfold noteProperties annotationOf objectAt
  rcases Json.member? members "Properties" with _ | value
  · exact (Checked.accepts_pure none).congr (iff_true_intro nothing)
  · have read := ((accepts_propertiesOf (membersOf value)).under (.key "properties")).map some
    cases value with
    | null => exact (Checked.accepts_pure none).congr (iff_true_intro nothing)
    | _ => exact read

theorem accepts_serverNote (members : Members) :
    Accepts (serverNote members) (¬Faulty .server members) (annotationOf members) := by
  refine (accepts_record (accepts_noteProperties members)).congr ?_
  rw [not_faulty_iff]
  simp

theorem accepts_docNote (members : Members) :
    Accepts (docNote members) (¬Faulty .note members)
      { properties := annotationOf members, text := textOf members "Text" } := by
  have fields := ((accepts_noteProperties members).map DocNote.mk).seq
    (accepts_field members "Text" "text")
  refine Accepts.congr (accepts_record fields) ?_
  rw [not_faulty_iff]
  simp [and_comm]

theorem accepts_bodyType (members : Members) (key : String) :
    Accepts (bodyType members key) (AllSound (Record.bodyAt members key)) (bodyOf members key) := by
  unfold bodyType Record.bodyAt bodyOf
  rcases Json.member? members key with _ | value
  · exact (accepts_ok none).congr (by simp)
  · cases value with
    | object body => exact ((accepts_typeExpr (.object body)).map some).congr (by simp [membersOf])
    | _ => exact (accepts_ok none).congr (by simp)

theorem accepts_route (members : Members) :
    Accepts (route members) (¬Faulty .route members) (routeOf members) := by
  have fields := (accepts_field members "Handler" "handler").map
      (fun handler method path =>
        { routeOf members with handler, method, path })
    |>.seq (accepts_field members "Method" "method")
    |>.seq (accepts_field members "Path" "path")
  refine ((accepts_bodyType members "RequestType").bind <|
    (accepts_bodyType members "ResponseType").bind <|
    (accepts_docNote (objectAt members "AtDoc")).bind <| (accepts_textsAt members).bind <|
    (accepts_serverNote (objectAt members "AtServerAnnotation")).bind <|
    (accepts_record fields)).congr ?_
  rw [not_faulty_iff]
  simp [and_assoc, and_comm, and_left_comm]

theorem accepts_group (members : Members) :
    Accepts (group members) (¬Faulty .group members) (groupOf members) := by
  have routes := accepts_mapM fun inner (_ : inner ∈ objectsAt members "Routes") =>
    accepts_route inner
  refine ((accepts_serverNote (objectAt members "Annotation")).bind <|
    routes.bind (accepts_ok (groupOf members))).congr ?_
  rw [not_faulty_iff]
  simp

theorem accepts_service (members : Members) :
    Accepts (service members) (¬Faulty .service members) (serviceOf members) := by
  have groups := accepts_mapM fun inner (_ : inner ∈ objectsAt members "Groups") =>
    accepts_group inner
  have fields := (accepts_field members "Name" "name").map fun name =>
    { serviceOf members with name }
  refine (groups.bind (accepts_record fields)).congr ?_
  rw [not_faulty_iff]
  simp [and_comm]

theorem accepts_version (members : Members) :
    Accepts (record ((textAt members "Version").under (.key "version"))) (¬Faulty .version members)
      (textOf members "Version") := by
  refine (accepts_record (accepts_field members "Version" "version")).congr ?_
  rw [not_faulty_iff]
  simp

theorem accepts_importedFile (members : Members) :
    Accepts (importedFile members) (¬Faulty .importedFile members) (textOf members "Value") := by
  refine (accepts_record (accepts_field members "Value" "value")).congr ?_
  rw [not_faulty_iff]
  simp

theorem accepts_document (members : Members) (source : Option Path) :
    Accepts (document (.object members) source) (¬Faulty .document members)
      (documentOf members source) := by
  have imports := accepts_mapM fun inner (_ : inner ∈ objectsAt members "Imports") =>
    accepts_importedFile inner
  have types := accepts_mapM fun inner (_ : inner ∈ objectsAt members "Types") =>
    accepts_typeDecl inner
  refine ((accepts_version (objectAt members "Syntax")).bind <|
    (accepts_info (objectAt members "Info")).bind <| imports.bind <| types.bind <|
    (accepts_service (objectAt members "Service")).bind <|
    accepts_ok (documentOf members source)).congr ?_
  rw [not_faulty_iff]
  simp

theorem document_error_iff (members : Members) (source : Option Path) :
    (∃ fault, document (.object members) source = .error fault) ↔ Faulty .document members := by
  have accepts := accepts_document members source
  constructor
  · rintro ⟨fault, rejected⟩
    by_contra sound
    have read := (accepts _).mpr ⟨sound, rfl⟩
    rw [rejected] at read
    cases read
  · intro faulty
    cases result : document (.object members) source with
    | error fault => exact ⟨fault, rfl⟩
    | ok found => exact absurd faulty ((accepts found).mp result).1

/-- A dump is rejected exactly if it is not an object, or if something at one of the places that
are looked at is wrong; and otherwise it is read as it says, whatever else it holds. -/
theorem document_rejected_iff (json : Json) (source : Option Path) :
    ((∃ fault, document json source = .error fault) ↔
      (∀ members, json ≠ .object members) ∨
        ∃ members, json = .object members ∧ Faulty .document members) ∧
    ∀ members, json = .object members → ¬Faulty .document members →
      document json source = .ok (documentOf members source) := by
  refine ⟨⟨fun rejected => ?rejected, ?wrong⟩, ?sound⟩
  case rejected =>
    by_cases isObject : ∃ members, json = .object members
    · obtain ⟨members, rfl⟩ := isObject
      exact .inr ⟨members, rfl, (document_error_iff members source).mp rejected⟩
    · exact .inl fun members same => isObject ⟨members, same⟩
  case wrong =>
    rintro (noObject | ⟨members, rfl, faulty⟩)
    · refine ⟨.notAnObject, ?_⟩
      cases json with
      | object members => exact absurd rfl (noObject members)
      | _ => rfl
    · exact (document_error_iff members source).mpr faulty
  case sound =>
    rintro members rfl sound
    exact (accepts_document members source _).mpr ⟨sound, rfl⟩

/-- A power of ten has one digit more than its exponent. -/
theorem isShowable_ten_pow (exponent : Nat) :
    (Json.number (.integer (Nat.pow 10 exponent))).isShowable =
      decide (exponent < Numeral.maxDigits) := by
  rw [Json.isShowable, Numeral.isShowable, Int.natAbs_natCast]
  generalize Numeral.maxDigits = limit
  exact decide_eq_decide.mpr (Nat.pow_lt_pow_iff_right (by decide))

/-- A lone surrogate is no reason to reject a dump, and an integer among the docs can be one. -/
theorem not_forall_document_rejected :
    (¬∀ (version : Text) (source : Option Path), version.isTextual = false →
      ∃ fault, document (objectOf [("Syntax", objectOf [("Version", .text version)])]) source =
        .error fault) ∧
    ∃ fault, document (objectOf [("Types", .list [objectOf [("RawName", .text "A"),
      ("Docs", .list [.number (.integer (Nat.pow 10 Numeral.maxDigits))])]])]) none =
        .error fault := by
  constructor
  · intro rejects
    obtain ⟨fault, rejected⟩ := rejects [.surrogate 0xD800] none (by decide)
    cases rejected
  · have long : (Json.number (.integer (Nat.pow 10 Numeral.maxDigits))).isShowable = false :=
      (isShowable_ten_pow _).trans (by decide)
    exact (document_error_iff _ none).mpr <|
      .part (List.mem_append_left _ (List.mem_append_right _ (.head _)))
        (.doc rfl rfl (.head _) long)

end Dump

end ApiDescription
