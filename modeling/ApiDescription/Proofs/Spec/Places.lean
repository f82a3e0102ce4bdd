import ApiDescription.Proofs.Json.Editing
import ApiDescription.Proofs.Spec.Schema

/-!
# Records inside JSON values

A value that stands for a record holds the records under its keys, and those in their turn hold
others. `RecordAt` finds them by their paths, after the table of fields; every record of a spec is
found in what the spec is encoded as. `DefaultAt` finds the keys under which the default of their
field stands.
-/

namespace ApiDescription.Spec

open Json (Members)

/-- The record at a path of a value that stands for a record of some kind: its own kind and its
members. -/
inductive RecordAt : RecordKind → Json → List Step → RecordKind → Members → Prop
  | here {kind : RecordKind} {members : Members} : RecordAt kind (.object members) [] kind members
  | record {kind inner found : RecordKind} {members below : Members} {column : Column} {json : Json}
      {path : List Step} (isColumn : column ∈ kind.columns) (isRecord : column.slot = .record inner)
      (isMember : Json.member? members column.key = some json)
      (inside : RecordAt inner json path found below) :
      RecordAt kind (.object members) (.key column.key :: path) found below
  | records {kind inner found : RecordKind} {members below : Members} {column : Column}
      {items : List Json} {position : Nat} {json : Json} {path : List Step}
      (isColumn : column ∈ kind.columns) (isRecords : column.slot = .records inner)
      (isMember : Json.member? members column.key = some (.list items))
      (isItem : items[position]? = some json) (inside : RecordAt inner json path found below) :
      RecordAt kind (.object members) (.key column.key :: .index position :: path) found below

section Places

/-- What stands in a record of a value stands in the value. -/
theorem RecordAt.trans {kind middle found : RecordKind} {json : Json} {front back : List Step}
    {members below : Members} (place : RecordAt kind json front middle members)
    (inside : RecordAt middle (.object members) back found below) :
    RecordAt kind json (front ++ back) found below := by
  induction place with
  | here => exact inside
  | record isColumn isRecord isMember _ inductionHypothesis =>
    exact .record isColumn isRecord isMember (inductionHypothesis inside)
  | records isColumn isRecords isMember isItem _ inductionHypothesis =>
    exact .records isColumn isRecords isMember isItem (inductionHypothesis inside)

variable {kind inner : RecordKind} {key : Text} {below : Members}

/-- A record that is written for a field stands under its key. -/
theorem recordAt_record {default : Option (Slot.record inner).Value}
    (fields : List (Text × Written)) (position : Nat) (keys : fields.map Prod.fst = kind.keys)
    (isColumn : kind.columns[position]? = some ⟨key, .record inner, default⟩)
    (isField : fields[position]? = some (key, some (.object below))) :
    RecordAt kind (.object (present fields)) [.key key] inner below :=
  .record (List.mem_of_getElem? isColumn) rfl
    (member?_present (keys ▸ kind.nodup_keys) isField) .here

/-- Records that are written for a field stand under its key, one behind the other. -/
theorem recordAt_records {α : Type} {encode : α → Json} {values : List α} {value : α} {place : Nat}
    {default : Option (Slot.records inner).Value} (fields : List (Text × Written))
    (position : Nat) (keys : fields.map Prod.fst = kind.keys)
    (isColumn : kind.columns[position]? = some ⟨key, .records inner, default⟩)
    (isField : fields[position]? = some (key, some (.list (values.map encode))))
    (isValue : values[place]? = some value) (shape : encode value = .object below) :
    RecordAt kind (.object (present fields)) [.key key, .index place] inner below := by
  have isItem : (values.map encode)[place]? = some (.object below) := by
    rw [List.getElem?_map, isValue, ← shape]
    rfl
  exact .records (List.mem_of_getElem? isColumn) rfl
    (member?_present (keys ▸ kind.nodup_keys) isField) isItem .here

variable (spec : Spec) (place : Nat)

/-- The metadata of a spec. -/
theorem recordAt_info :
    RecordAt .spec spec.encode [.key "info"] .metadata (present spec.info.written) :=
  recordAt_record spec.written 1 rfl rfl rfl

/-- An import of a spec. -/
theorem recordAt_file {file : Import} (isFile : spec.imports[place]? = some file) :
    RecordAt .spec spec.encode [.key "imports", .index place] .file (present file.written) :=
  recordAt_records spec.written 2 rfl rfl rfl isFile file.encode_eq

/-- A type of a spec. -/
theorem recordAt_struct {struct : Struct} (isStruct : spec.types[place]? = some struct) :
    RecordAt .spec spec.encode [.key "types", .index place] .struct (present struct.written) :=
  recordAt_records spec.written 3 rfl rfl rfl isStruct struct.encode_eq

/-- A service of a spec. -/
theorem recordAt_service {service : Service} (isService : spec.services[place]? = some service) :
    RecordAt .spec spec.encode [.key "services", .index place] .service
      (present service.written) :=
  recordAt_records spec.written 4 rfl rfl rfl isService service.encode_eq

/-- A type of an import. -/
theorem recordAt_importedStruct {file : Import} {struct : Struct}
    (isStruct : file.types[place]? = some struct) :
    RecordAt .file (.object (present file.written)) [.key "types", .index place] .struct
      (present struct.written) := by
  refine recordAt_records file.written 2 rfl rfl ?_ isStruct struct.encode_eq
  rw [Import.written, writtenUnless_of_getElem? _ isStruct]
  rfl

/-- A field of a type. -/
theorem recordAt_field {struct : Struct} {field : Field}
    (isField : struct.fields[place]? = some field) :
    RecordAt .struct (.object (present struct.written)) [.key "fields", .index place] .field
      (present field.written) :=
  recordAt_records struct.written 4 rfl rfl rfl isField field.encode_eq

/-- The settings of a service. -/
theorem recordAt_server {service : Service} :
    RecordAt .service (.object (present service.written)) [.key "server"] .server
      (present service.server.written) :=
  recordAt_record service.written 1 rfl rfl rfl

/-- A route of a service. -/
theorem recordAt_route {service : Service} {route : Route}
    (isRoute : service.routes[place]? = some route) :
    RecordAt .service (.object (present service.written)) [.key "routes", .index place] .route
      (present route.written) :=
  recordAt_records service.written 2 rfl rfl rfl isRoute route.encode_eq

end Places

/-- The records in a plain value are plain. -/
theorem RecordAt.plain {kind found : RecordKind} {json : Json} {path : List Step}
    {members : Members} {depth : Nat} (place : RecordAt kind json path found members)
    (plain : Json.Plain (depth + path.length) json) : Json.Plain depth (.object members) := by
  induction place with
  | here => exact plain
  | record _ _ isMember _ inductionHypothesis =>
    cases plain with
    | object _ plain => exact inductionHypothesis (plain _ (Json.mem_of_member? isMember))
  | records _ _ isMember isItem _ inductionHypothesis =>
    cases plain with
    | object _ plain =>
      cases plain _ (Json.mem_of_member? isMember) with
      | list plain => exact inductionHypothesis (plain _ (List.mem_of_getElem? isItem))

/-- A key in a value that stands for a record of some kind, under which the default of its field
stands. -/
inductive DefaultAt (kind : RecordKind) (json : Json) : List Step → Prop
  | key {front : List Step} {found : RecordKind} {members : Members} {column : Column}
      {value : Json} {default : column.slot.Value} (place : RecordAt kind json front found members)
      (isColumn : column ∈ found.columns)
      (isMember : Json.member? members column.key = some value)
      (isDefault : column.default = some default)
      (decoded : column.slot.decode value = .valid default) :
      DefaultAt kind json (front ++ [.key column.key])

/-- A field that has its default stands in its record with the default. -/
theorem RecordAt.defaultAt {kind found : RecordKind} {json value : Json} {front : List Step}
    {fields : List (Text × Written)} {key : Text} {slot : Slot} {default : slot.Value}
    (place : RecordAt kind json front found (present fields)) (position : Nat)
    (keys : fields.map Prod.fst = found.keys)
    (isColumn : found.columns[position]? = some ⟨key, slot, some default⟩)
    (isField : fields[position]? = some (key, some value))
    (decoded : slot.decode value = .valid default) : DefaultAt kind json (front ++ [.key key]) :=
  .key place (List.mem_of_getElem? isColumn) (member?_present (keys ▸ found.nodup_keys) isField)
    rfl decoded

section Defaults

variable {kind : RecordKind} {members : Members}

/-- What has a default is a key and not the value itself. -/
theorem DefaultAt.ne_nil {json : Json} {path : List Step} (found : DefaultAt kind json path) :
    path ≠ [] := by
  cases found
  exact List.append_ne_nil_of_right_ne_nil _ (List.cons_ne_nil _ _)

/-- A key in a value under the key of a field, in a record there, under which a default stands. -/
inductive DefaultIn : Slot → Json → List Step → Prop
  | record {inner : RecordKind} {value : Json} {path : List Step}
      (found : DefaultAt inner value path) : DefaultIn (.record inner) value path
  | records {inner : RecordKind} {items : List Json} {position : Nat} {json : Json}
      {path : List Step} (isItem : items[position]? = some json)
      (found : DefaultAt inner json path) :
      DefaultIn (.records inner) (.list items) (.index position :: path)

/-- A key with a default is not the value in which it stands. -/
theorem DefaultIn.ne_nil {slot : Slot} {value : Json} {path : List Step}
    (found : DefaultIn slot value path) : path ≠ [] := by
  cases found with
  | record found => exact found.ne_nil
  | records => exact List.cons_ne_nil _ _

/-- A key with a default is a key of the record or stands in one of the records in it. -/
theorem DefaultAt.cases {column : Column} {value : Json} {path : List Step}
    (found : DefaultAt kind (.object members) (.key column.key :: path))
    (isColumn : column ∈ kind.columns)
    (isMember : Json.member? members column.key = some value) :
    (path = [] ∧ ∃ default, column.default = some default ∧
        column.slot.decode value = .valid default) ∨ DefaultIn column.slot value path := by
  generalize whole : Step.key column.key :: path = keys at found
  cases found with
  | key place isOther isHere isDefault decoded =>
    cases place with
    | here =>
      simp only [List.nil_append, List.cons.injEq, Step.key.injEq] at whole
      obtain rfl := RecordKind.column_eq_of_key isColumn isOther whole.1
      cases isMember.symm.trans isHere
      exact .inl ⟨whole.2, _, isDefault, decoded⟩
    | record isOuter isRecord isInner inside =>
      simp only [List.cons_append, List.cons.injEq, Step.key.injEq] at whole
      obtain ⟨same, rfl⟩ := whole
      obtain rfl := RecordKind.column_eq_of_key isColumn isOuter same
      cases isMember.symm.trans isInner
      refine .inr ?_
      rw [isRecord]
      exact .record (.key inside isOther isHere isDefault decoded)
    | records isOuter isRecords isInner isItem inside =>
      simp only [List.cons_append, List.cons.injEq, Step.key.injEq] at whole
      obtain ⟨same, rfl⟩ := whole
      obtain rfl := RecordKind.column_eq_of_key isColumn isOuter same
      cases isMember.symm.trans isInner
      refine .inr ?_
      rw [isRecords]
      exact .records isItem (.key inside isOther isHere isDefault decoded)

/-- Only keys of the record itself are left out where a single key leads to them. -/
theorem DefaultAt.mem_keys {json : Json} {key : Text} (found : DefaultAt kind json [.key key]) :
    key ∈ kind.keys := by
  generalize whole : [Step.key key] = keys at found
  cases found with
  | key place isColumn isMember isDefault decoded =>
    cases place with
    | here =>
      simp only [List.nil_append, List.cons.injEq, Step.key.injEq] at whole
      exact whole.1 ▸ List.mem_map_of_mem isColumn
    | record | records => simp at whole

end Defaults

end ApiDescription.Spec
