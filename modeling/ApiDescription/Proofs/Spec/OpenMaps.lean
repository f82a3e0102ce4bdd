import ApiDescription.Proofs.Json.Editing
import ApiDescription.Proofs.Spec.Records

/-!
# Entries that are added to maps

The maps of a spec are open: any entry may be written into the JSON value of one of them. The
changed value is what the spec with the entry in its map is encoded as, also where the map was
empty and has been left out.
-/

namespace ApiDescription

/-- Values that are written into a map may be replaced before or after. -/
theorem OrderedMap.map_write {κ α β : Type} [DecidableEq κ] (change : α → β) (key : κ) (value : α)
    (entries : List (κ × α)) :
    (write key value entries).map (fun entry => (entry.1, change entry.2)) =
      write key (change value) (entries.map fun entry => (entry.1, change entry.2)) := by
  induction entries with
  | nil => rfl
  | cons entry rest inductionHypothesis =>
    by_cases same : entry.1 = key
    · simp [write, same]
    · simp [write, same, inductionHypothesis]

/-- The entries of a map behind the writing of a key are the new one and those that were there. -/
theorem OrderedMap.eq_or_mem_of_mem_insert {κ α : Type} [DecidableEq κ] {map : OrderedMap κ α}
    {key : κ} {value : α} {entry : κ × α} (member : entry ∈ (map.insert key value).entries) :
    entry = (key, value) ∨ entry ∈ map.entries := by
  have found := get?_eq_some_iff.mpr member
  rw [get?, insert, lookup_write] at found
  split at found
  · next same => exact .inl (Prod.ext same (Option.some.inj found).symm)
  · exact .inr (get?_eq_some_iff.mp found)

/-- A map with an entry is not empty. -/
theorem OrderedMap.isEmpty_insert {κ α : Type} [DecidableEq κ] (map : OrderedMap κ α) (key : κ)
    (value : α) : (map.insert key value).isEmpty = false := by
  have isKey : key ∈ (map.insert key value).entries.map Prod.fst := mem_keys_write.mpr (.inl rfl)
  obtain ⟨entry, isEntry, -⟩ := List.mem_map.mp isKey
  exact List.isEmpty_eq_false_iff.mpr (List.ne_nil_of_mem isEntry)

namespace Json

/-- A record with another entry in one of its maps, which may be left out so far. -/
def withEntry (map key text : Text) : Json → Json
  | .object members =>
    let entries := match member? members map with
      | some (.object entries) => entries
      | _ => []
    .object (OrderedMap.write map (.object (OrderedMap.write key (.text text) entries)) members)
  | json => json

/-- An item of a list is changed where it stands. -/
theorem update_map {α : Type} {encode : α → Json} {values : List α} {position : Nat} {old new : α}
    {path : List Step} {change : Json → Json} (isItem : values[position]? = some old)
    (changed : update path change (encode old) = encode new) :
    update (.index position :: path) change (.list (values.map encode)) =
      .list ((values.set position new).map encode) := by
  obtain ⟨inside, here⟩ := List.getElem?_eq_some_iff.mp isItem
  rw [update, List.modify_eq_set_getElem?, List.getElem?_map, isItem, List.map_set, ← changed]
  rfl

end Json

namespace Spec

section Fields

variable {fields : List (Text × Written)} {position : Nat} {key : Text}

/-- Under a key that no field has, nothing is present. -/
theorem not_mem_present (absent : key ∉ fields.map Prod.fst) :
    key ∉ (present fields).map Prod.fst := by
  intro isKey
  obtain ⟨entry, isMember, rfl⟩ := List.mem_map.mp isKey
  exact absent (List.mem_map_of_mem (f := Prod.fst) (mem_present_iff.mp isMember))

/-- A field of a record is changed where it stands. -/
theorem update_present {json : Json} {path : List Step} {change : Json → Json}
    (distinct : (fields.map Prod.fst).Nodup) (position : Nat)
    (isField : fields[position]? = some (key, some json)) :
    Json.update (.key key :: path) change (.object (present fields)) =
      .object (present (fields.set position (key, some (json.update path change)))) := by
  rw [Json.update, Json.object.injEq]
  induction fields generalizing position with
  | nil => simp at isField
  | cons field rest inductionHypothesis =>
    rw [List.map_cons, List.nodup_cons] at distinct
    cases position with
    | zero =>
      cases isField
      have others : ∀ entry ∈ present rest,
          (if entry.1 = key then (entry.1, Json.update path change entry.2) else entry) =
            entry := by
        intro entry isMember
        refine if_neg fun same => ?_
        exact not_mem_present distinct.1 (same ▸ List.mem_map_of_mem isMember)
      rw [List.set_cons_zero, present_shown, present_shown, List.map_cons, if_pos rfl,
        List.map_congr_left others, List.map_id']
    | succ position =>
      rw [List.getElem?_cons_succ] at isField
      have apart : field.1 ≠ key := by
        rintro rfl
        exact distinct.1 (List.mem_map.mpr ⟨_, List.mem_of_getElem? isField, rfl⟩)
      have later := inductionHypothesis distinct.2 position isField
      obtain ⟨other, shown⟩ := field
      rw [List.set_cons_succ]
      cases shown with
      | none => exact later
      | some json => rw [present_shown, present_shown, List.map_cons, if_neg apart, later]

/-- Writing a map into a record changes its field, which is the last one if it has been left
out. -/
theorem write_present {written : Written} {json : Json} (distinct : (fields.map Prod.fst).Nodup)
    (isField : fields[position]? = some (key, written))
    (last : written = none → position + 1 = fields.length) :
    OrderedMap.write key json (present fields) =
      present (fields.set position (key, some json)) := by
  induction fields generalizing position with
  | nil => simp at isField
  | cons field rest inductionHypothesis =>
    rw [List.map_cons, List.nodup_cons] at distinct
    cases position with
    | zero =>
      cases isField
      rw [List.set_cons_zero, present_shown]
      cases written with
      | some old => rw [present_shown, OrderedMap.write, if_pos rfl]
      | none =>
        obtain rfl : rest = [] := List.length_eq_zero_iff.mp (Nat.succ.inj (last rfl)).symm
        rfl
    | succ position =>
      rw [List.getElem?_cons_succ] at isField
      have apart : field.1 ≠ key := by
        rintro rfl
        exact distinct.1 (List.mem_map.mpr ⟨_, List.mem_of_getElem? isField, rfl⟩)
      have later := inductionHypothesis distinct.2 isField fun left => Nat.succ.inj (last left)
      obtain ⟨other, shown⟩ := field
      rw [List.set_cons_succ]
      cases shown with
      | none => exact later
      | some json => rw [present_shown, present_shown, OrderedMap.write, if_neg apart, later]

/-- A map that is written into a record gets an entry, and one that has been left out is written
with the entry. -/
theorem withEntry_present {map text : Text} {written : Written} {values : Properties}
    (distinct : (fields.map Prod.fst).Nodup) (position : Nat)
    (isField : fields[position]? = some (map, written))
    (shows : written = some (mapping values) ∨
      written = none ∧ values = .empty ∧ position + 1 = fields.length)
    (textual : ∀ entry ∈ values.entries, entry.1.isTextual = true)
    (keyTextual : key.isTextual = true) :
    Json.withEntry map key text (.object (present fields)) =
      .object (present (fields.set position (map, some (mapping (values.insert key text))))) := by
  have whole : mapping (values.insert key text) =
      .object (OrderedMap.write key (.text text)
        (values.entries.map fun entry => (entry.1, Json.text entry.2))) := by
    have added : ∀ entry ∈ (values.insert key text).entries, entry.1.isTextual = true := by
      intro entry isEntry
      rcases OrderedMap.eq_or_mem_of_mem_insert isEntry with rfl | isOld
      · exact keyTextual
      · exact textual entry isOld
    rw [mapping, withTextualKeys_eq_self added]
    exact congrArg Json.object (OrderedMap.map_write Json.text key text values.entries)
  have found := member?_present distinct isField
  have changed (last : written = none → position + 1 = fields.length) :
      OrderedMap.write map (mapping (values.insert key text)) (present fields) =
        present (fields.set position (map, some (mapping (values.insert key text)))) :=
    write_present distinct isField last
  rw [Json.withEntry, found]
  obtain rfl | ⟨rfl, rfl, last⟩ := shows
  · rw [← changed fun none => absurd none (Option.some_ne_none _), whole, mapping,
      withTextualKeys_eq_self textual]
  · rw [← changed fun _ => last, whole]
    rfl

/-- A map that is left out when it is empty is written, or left out and empty. -/
theorem writtenUnless_mapping (values : Properties) :
    writtenUnless values.isEmpty (mapping values) = some (mapping values) ∨
      writtenUnless values.isEmpty (mapping values) = none ∧ values = .empty := by
  cases isEmpty : values.isEmpty with
  | false => exact .inl rfl
  | true => exact .inr ⟨rfl, eq_empty_of_isEmpty isEmpty⟩

end Fields

/-- The map at a key of a record at a path of a spec, and the spec with another map there. -/
inductive MapAt (spec : Spec) : List Step → Text → Properties → (Properties → Spec) → Prop
  | properties :
    MapAt spec [.key "info"] "properties" spec.info.properties fun values =>
      { spec with info := { spec.info with properties := values } }
  | enums {position : Nat} {struct : Struct} (isStruct : spec.types[position]? = some struct) :
    MapAt spec [.key "types", .index position] "enums" struct.enums fun values =>
      { spec with types := spec.types.set position { struct with enums := values } }
  | importedEnums {place position : Nat} {file : Import} {struct : Struct}
      (isFile : spec.imports[place]? = some file)
      (isStruct : file.types[position]? = some struct) :
    MapAt spec [.key "imports", .index place, .key "types", .index position] "enums" struct.enums
      fun values =>
        { spec with imports := spec.imports.set place { file with
          types := file.types.set position { struct with enums := values } } }
  | doc {place position : Nat} {service : Service} {route : Route}
      (isService : spec.services[place]? = some service)
      (isRoute : service.routes[position]? = some route) :
    MapAt spec [.key "services", .index place, .key "routes", .index position] "doc" route.doc
      fun values =>
        { spec with services := spec.services.set place { service with
          routes := service.routes.set position { route with doc := values } } }
  | server {place position : Nat} {service : Service} {route : Route}
      (isService : spec.services[place]? = some service)
      (isRoute : service.routes[position]? = some route) :
    MapAt spec [.key "services", .index place, .key "routes", .index position]
      "at_server_annotation" route.server fun values =>
        { spec with services := spec.services.set place { service with
          routes := service.routes.set position { route with server := values } } }

section Entries

variable {key text : Text}

/-- An entry of the enums of a struct. -/
theorem Struct.withEntry_encode {struct : Struct} (textual : AreTextual struct.strings)
    (keyTextual : key.isTextual = true) :
    struct.encode.withEntry "enums" key text =
      Struct.encode { struct with enums := struct.enums.insert key text } := by
  simp only [strings, areTextual_append, areTextual_stringsOf] at textual
  rw [encode_eq, encode_eq, withEntry_present struct.areKeys_written.1 6 rfl
    ((writtenUnless_mapping struct.enums).imp_right fun none => ⟨none.1, none.2, rfl⟩)
    (fun entry isEntry => (textual.2 entry isEntry).1) keyTextual]
  simp only [written, writtenUnless, OrderedMap.isEmpty_insert]
  rfl

/-- An entry of the properties of the metadata. -/
theorem Metadata.withEntry_encode {info : Metadata} (textual : AreTextual info.strings)
    (keyTextual : key.isTextual = true) :
    info.encode.withEntry "properties" key text =
      Metadata.encode { info with properties := info.properties.insert key text } := by
  simp only [strings, areTextual_append, areTextual_stringsOf] at textual
  rw [encode_eq, withEntry_present info.areKeys_written.1 6 rfl (.inl rfl)
    (fun entry isEntry => (textual.2 entry isEntry).1) keyTextual]
  rfl

/-- Entries of the properties in the doc of a route and of its own settings. -/
theorem Route.withEntry_encode {route : Route} (textual : AreTextual route.strings)
    (keyTextual : key.isTextual = true) :
    route.encode.withEntry "doc" key text =
        Route.encode { route with doc := route.doc.insert key text } ∧
      route.encode.withEntry "at_server_annotation" key text =
        Route.encode { route with server := route.server.insert key text } := by
  simp only [strings, areTextual_append, areTextual_stringsOf] at textual
  obtain ⟨⟨⟨-, described⟩, -⟩, own⟩ := textual
  rw [encode_eq, encode_eq, encode_eq]
  constructor
  · rw [withEntry_present route.areKeys_written.1 5 rfl (.inl rfl)
      (fun entry isEntry => (described entry isEntry).1) keyTextual]
    rfl
  · rw [withEntry_present route.areKeys_written.1 7 rfl
      ((writtenUnless_mapping route.server).imp_right fun none => ⟨none.1, none.2, rfl⟩)
      (fun entry isEntry => (own entry isEntry).1) keyTextual]
    simp only [written, writtenUnless, OrderedMap.isEmpty_insert]
    rfl

variable {spec : Spec} {path : List Step} {map : Text} {values : Properties}
  {put : Properties → Spec}

/-- A service is changed among the services of a spec, and a route among those of the service. -/
theorem update_route {place position : Nat} {service : Service} {old new : Route}
    {change : Json → Json} (textual : AreTextual spec.strings)
    (isService : spec.services[place]? = some service)
    (isRoute : service.routes[position]? = some old)
    (changed : AreTextual old.strings → old.encode.update [] change = new.encode) :
    spec.encode.update [.key "services", .index place, .key "routes", .index position] change =
      Spec.encode { spec with services := spec.services.set place { service with
        routes := service.routes.set position new } } := by
  simp only [strings, areTextual_append, areTextual_flatMap] at textual
  have called := textual.2 service (List.mem_of_getElem? isService)
  simp only [Service.strings, areTextual_append, areTextual_flatMap] at called
  have route := changed (called.2 old (List.mem_of_getElem? isRoute))
  have inside : service.encode.update [.key "routes", .index position] change =
      Service.encode { service with routes := service.routes.set position new } := by
    rw [Service.encode_eq, update_present service.areKeys_written.1 2 rfl,
      Json.update_map isRoute route]
    rfl
  rw [encode_eq, update_present spec.areKeys_written.1 4 rfl,
    Json.update_map isService inside]
  rfl

/-- A type is changed among the types of an import. -/
theorem Import.update_struct {file : Import} {position : Nat} {old new : Struct}
    {change : Json → Json} (isStruct : file.types[position]? = some old)
    (changed : old.encode.update [] change = new.encode) :
    file.encode.update [.key "types", .index position] change =
      Import.encode { file with types := file.types.set position new } := by
  have isNew : (file.types.set position new)[position]? = some new := by
    rw [List.getElem?_set_self (List.getElem?_eq_some_iff.mp isStruct).1]
  have types : file.written[2]? =
      some (Text.ofString "types", some (.list (file.types.map Struct.encode))) := by
    rw [Import.written, writtenUnless_of_getElem? _ isStruct]
    rfl
  rw [Import.encode_eq, Import.encode_eq, update_present file.areKeys_written.1 2 types,
    Json.update_map isStruct changed, Import.written, Import.written,
    writtenUnless_of_getElem? _ isNew]
  rfl

/-- An entry that is written into a map of the JSON value of a spec is an entry of that map. -/
theorem MapAt.update_encode (place : MapAt spec path map values put)
    (textual : AreTextual spec.strings) (keyTextual : key.isTextual = true) :
    spec.encode.update path (Json.withEntry map key text) =
      (put (values.insert key text)).encode := by
  have parts := textual
  simp only [strings, areTextual_append, areTextual_cons, areTextual_flatMap] at parts
  obtain ⟨⟨⟨⟨-, known⟩, files⟩, structs⟩, -⟩ := parts
  cases place with
  | properties =>
    have changed : spec.info.encode.withEntry "properties" key text = _ :=
      Metadata.withEntry_encode known keyTextual
    rw [encode_eq, update_present spec.areKeys_written.1 1 rfl, Json.update, changed]
    rfl
  | @enums position struct isStruct =>
    have changed : struct.encode.update [] (Json.withEntry "enums" key text) = _ :=
      Struct.withEntry_encode (structs _ (List.mem_of_getElem? isStruct)) keyTextual
    rw [encode_eq, update_present spec.areKeys_written.1 3 rfl, Json.update_map isStruct changed]
    rfl
  | @importedEnums place position file struct isFile isStruct =>
    have isImport := List.mem_of_getElem? isFile
    have textual := files file isImport
    simp only [Import.strings, areTextual_append, areTextual_flatMap] at textual
    have changed : struct.encode.update [] (Json.withEntry "enums" key text) = _ :=
      Struct.withEntry_encode (textual.2 _ (List.mem_of_getElem? isStruct)) keyTextual
    have inside := Import.update_struct isStruct changed
    rw [encode_eq, update_present spec.areKeys_written.1 2 rfl, Json.update_map isFile inside]
    rfl
  | doc isService isRoute =>
    exact update_route textual isService isRoute fun route =>
      (Route.withEntry_encode route keyTextual).1
  | server isService isRoute =>
    exact update_route textual isService isRoute fun route =>
      (Route.withEntry_encode route keyTextual).2

/-- An item that is put into a list leaves what is true of all its items, if it is true of it. -/
theorem areTextual_set {α : Type} {strings : α → List Text} {items : List α} {position : Nat}
    {new : α} (textual : ∀ item ∈ items, AreTextual (strings item))
    (newTextual : AreTextual (strings new)) :
    ∀ item ∈ items.set position new, AreTextual (strings item) := by
  intro item member
  rcases List.mem_or_eq_of_mem_set member with old | rfl
  · exact textual item old
  · exact newTextual

/-- A spec stays without lone surrogates if the route that is changed does. -/
theorem areTextual_route {place position : Nat} {service : Service} {old new : Route}
    (textual : AreTextual spec.strings) (isService : spec.services[place]? = some service)
    (isRoute : service.routes[position]? = some old)
    (stays : AreTextual old.strings → AreTextual new.strings) :
    AreTextual (strings { spec with services := spec.services.set place { service with
      routes := service.routes.set position new } }) := by
  simp only [strings, areTextual_append, areTextual_flatMap] at textual ⊢
  refine ⟨textual.1, areTextual_set textual.2 ?_⟩
  have called := textual.2 service (List.mem_of_getElem? isService)
  simp only [Service.strings, areTextual_append, areTextual_flatMap] at called ⊢
  exact ⟨called.1, areTextual_set called.2 (stays (called.2 old (List.mem_of_getElem? isRoute)))⟩

/-- A map stays without lone surrogates when an entry without any is added. -/
theorem areTextual_insert (keyTextual : key.isTextual = true) (textTextual : text.isTextual = true)
    (textual : AreTextual (stringsOf values)) :
    AreTextual (stringsOf (values.insert key text)) := by
  rw [areTextual_stringsOf] at textual ⊢
  intro entry isEntry
  rcases OrderedMap.eq_or_mem_of_mem_insert isEntry with rfl | isOld
  · exact ⟨keyTextual, textTextual⟩
  · exact textual entry isOld

/-- A spec stays without lone surrogates when an entry without any is added. -/
theorem MapAt.areTextual (place : MapAt spec path map values put)
    (textual : AreTextual spec.strings) (keyTextual : key.isTextual = true)
    (textTextual : text.isTextual = true) :
    AreTextual (put (values.insert key text)).strings := by
  have entries {values : Properties} : AreTextual (stringsOf values) →
      AreTextual (stringsOf (values.insert key text)) := areTextual_insert keyTextual textTextual
  have structWith {struct : Struct} (old : AreTextual struct.strings) :
      AreTextual (Struct.strings { struct with enums := struct.enums.insert key text }) := by
    simp only [Struct.strings, areTextual_append] at old ⊢
    exact ⟨old.1, entries old.2⟩
  cases place with
  | properties =>
    simp only [strings, areTextual_append, areTextual_cons, Metadata.strings] at textual ⊢
    obtain ⟨⟨⟨⟨version, named, properties⟩, files⟩, structs⟩, offered⟩ := textual
    exact ⟨⟨⟨⟨version, named, entries properties⟩, files⟩, structs⟩, offered⟩
  | @enums position struct isStruct =>
    simp only [strings, areTextual_append, areTextual_flatMap] at textual ⊢
    obtain ⟨⟨front, structs⟩, offered⟩ := textual
    have changed := structWith (structs struct (List.mem_of_getElem? isStruct))
    exact ⟨⟨front, areTextual_set structs changed⟩, offered⟩
  | @importedEnums place position file struct isFile isStruct =>
    simp only [strings, areTextual_append, areTextual_flatMap] at textual ⊢
    obtain ⟨⟨⟨front, files⟩, structs⟩, offered⟩ := textual
    have imported := files file (List.mem_of_getElem? isFile)
    refine ⟨⟨⟨front, areTextual_set files ?_⟩, structs⟩, offered⟩
    simp only [Import.strings, areTextual_append, areTextual_flatMap] at imported ⊢
    have changed := structWith (imported.2 struct (List.mem_of_getElem? isStruct))
    exact ⟨imported.1, areTextual_set imported.2 changed⟩
  | doc isService isRoute =>
    refine areTextual_route textual isService isRoute fun old => ?_
    simp only [Route.strings, areTextual_append] at old ⊢
    exact ⟨⟨⟨old.1.1.1, entries old.1.1.2⟩, old.1.2⟩, old.2⟩
  | server isService isRoute =>
    refine areTextual_route textual isService isRoute fun old => ?_
    simp only [Route.strings, areTextual_append] at old ⊢
    exact ⟨old.1, entries old.2⟩

end Entries

end Spec

end ApiDescription
