import ApiDescription.Proofs.Spec.Records

/-!
# The kinds of records

Records of all kinds are decoded alike. Each field is looked up under its key and checked, and the
keys that no field has are reported. `RecordKind.columns` says what fields each kind has; the
decoder of a kind depends on members through these fields only, and reports their issues one after
the other.
-/

namespace ApiDescription

namespace Checked

variable {α β : Type}

/-- What is wrong with a value. -/
def issues : Checked α → List Issue
  | .valid _ => []
  | .invalid issues => issues

theorem issues_seq (f : Checked (α → β)) (x : Checked α) :
    (f <*> x).issues = f.issues ++ x.issues := by
  cases f <;> cases x <;> simp [issues, Seq.seq, seq]

theorem issues_map (f : α → β) (x : Checked α) : (f <$> x).issues = x.issues := by
  cases x <;> rfl

theorem issues_seqLeft (x : Checked α) (y : Checked β) :
    (x <* y).issues = x.issues ++ y.issues := by
  cases x <;> cases y <;> simp [issues, SeqLeft.seqLeft, seq]

/-- The issues of a value that is looked at one step deeper. -/
theorem issues_under (step : Step) (x : Checked α) :
    (x.under step).issues =
      x.issues.map fun issue => { issue with path := step :: issue.path } := by
  cases x <;> rfl

/-- A value with issues is not valid. -/
theorem eq_invalid {x : Checked α} {found : List Issue} (some : found ≠ [])
    (same : x.issues = found) : x = .invalid found := by
  cases x with
  | valid value => exact absurd same.symm some
  | invalid issues => exact congrArg Checked.invalid same

/-- The issues of a list are those of its items. -/
theorem issues_each_cons (check : α → Checked β) (position : Nat) (first : α) (rest : List α) :
    (each check position (first :: rest)).issues =
      ((check first).under (.index position)).issues ++
        (each check (position + 1) rest).issues := by
  rw [each, issues_seq, issues_map]

/-- The items of a list without issues have none. -/
theorem issues_of_mem {check : α → Checked β} {position : Nat} {items : List α}
    (valid : (each check position items).issues = []) :
    ∀ item ∈ items, (check item).issues = [] := by
  induction items generalizing position with
  | nil => exact List.forall_mem_nil _
  | cons first rest inductionHypothesis =>
    rw [issues_each_cons, List.append_eq_nil_iff, issues_under, List.map_eq_nil_iff] at valid
    exact List.forall_mem_cons.mpr ⟨valid.1, inductionHypothesis valid.2⟩

/-- In a list without issues, issues come up where one item is changed, and no others. -/
theorem issues_each_modify {check : α → Checked β} {position offset : Nat} {items : List α}
    {item : α} (valid : (each check position items).issues = [])
    (isItem : items[offset]? = some item) (change : α → α) :
    (each check position (items.modify offset change)).issues =
      ((check (change item)).under (.index (position + offset))).issues := by
  induction items generalizing position offset with
  | nil => exact nomatch isItem
  | cons first rest inductionHypothesis =>
    rw [issues_each_cons, List.append_eq_nil_iff] at valid
    cases offset with
    | zero =>
      cases isItem
      rw [List.modify_zero_cons, issues_each_cons, valid.2, List.append_nil, Nat.add_zero]
    | succ offset =>
      rw [List.getElem?_cons_succ] at isItem
      rw [List.modify_succ_cons, issues_each_cons, valid.1, List.nil_append,
        inductionHypothesis valid.2 isItem, Nat.add_right_comm, Nat.add_assoc]

end Checked

namespace Spec

open Json (Members)

/-- The kinds of records in a spec. -/
inductive RecordKind where
  | spec | metadata | file | struct | field | service | server | route
  deriving DecidableEq, Repr

/-- What may stand under a key of a record. -/
inductive Slot where
  | text | texts | mapping | truth
  | record (kind : RecordKind)
  | records (kind : RecordKind)
  deriving DecidableEq, Repr

/-- The kind of the records in a slot. -/
def Slot.inner? : Slot → Option RecordKind
  | .record kind | .records kind => some kind
  | _ => none

/-- The records of a kind. -/
abbrev RecordKind.Value : RecordKind → Type
  | .spec => Spec
  | .metadata => Metadata
  | .file => Import
  | .struct => Struct
  | .field => Field
  | .service => Service
  | .server => Server
  | .route => Route

/-- The decoder of a kind. -/
def RecordKind.decode : (kind : RecordKind) → Members → Checked kind.Value
  | .spec => decodeMembers
  | .metadata => Metadata.decode
  | .file => Import.decode
  | .struct => Struct.decode
  | .field => Field.decode
  | .service => Service.decode
  | .server => Server.decode
  | .route => Route.decode

/-- What a slot holds. -/
abbrev Slot.Value : Slot → Type
  | .text => Text
  | .texts => List Text
  | .mapping => Properties
  | .truth => Bool
  | .record kind => kind.Value
  | .records kind => List kind.Value

/-- The decoder of a slot. -/
def Slot.decode : (slot : Slot) → Json → Checked slot.Value
  | .text => Json.checkText
  | .texts => listOf Json.checkText
  | .mapping => mapOfTexts
  | .truth => Spec.truth
  | .record kind => Spec.record kind.decode
  | .records kind => listOf (Spec.record kind.decode)

/-- A field of a kind of records. Without a default it has to be there. -/
structure Column where
  key : Text
  slot : Slot
  default : Option slot.Value

/-- What a field of a record is decoded to. -/
def Column.outcome (column : Column) (members : Members) : Checked column.slot.Value :=
  match column.default with
  | some default => withDefault members column.key default column.slot.decode
  | none => required members column.key column.slot.decode

namespace RecordKind

/-- The fields of a kind. -/
def columns : RecordKind → List Column
  | .spec =>
    [⟨"syntax", .text, some []⟩, ⟨"info", .record .metadata, some ({} : Metadata)⟩,
     ⟨"imports", .records .file, some []⟩, ⟨"types", .records .struct, some []⟩,
     ⟨"services", .records .service, some []⟩]
  | .metadata =>
    [⟨"title", .text, some []⟩, ⟨"desc", .text, some []⟩, ⟨"author", .text, some []⟩,
     ⟨"date", .text, some []⟩, ⟨"version", .text, some []⟩, ⟨"email", .text, some []⟩,
     ⟨"properties", .mapping, some .empty⟩]
  | .file =>
    [⟨"value", .text, none⟩, ⟨"as_package", .text, some []⟩, ⟨"types", .records .struct, some []⟩]
  | .struct =>
    [⟨"name", .text, none⟩, ⟨"package", .text, some []⟩, ⟨"type_name", .text, some []⟩,
     ⟨"raw_name", .text, some []⟩, ⟨"fields", .records .field, some []⟩,
     ⟨"docs", .texts, some []⟩, ⟨"enums", .mapping, some .empty⟩]
  | .field =>
    [⟨"name", .text, none⟩, ⟨"type", .text, none⟩, ⟨"tag", .text, some []⟩,
     ⟨"comment", .text, some []⟩, ⟨"docs", .texts, some []⟩, ⟨"is_inline", .truth, some false⟩,
     ⟨"optional", .truth, some false⟩]
  | .service =>
    [⟨"name", .text, some []⟩, ⟨"server", .record .server, some ({} : Server)⟩,
     ⟨"routes", .records .route, some []⟩]
  | .server =>
    [⟨"group", .text, some []⟩, ⟨"prefix", .text, some []⟩, ⟨"auth", .text, some []⟩,
     ⟨"middleware", .texts, some []⟩, ⟨"timeout", .text, some []⟩]
  | .route =>
    [⟨"handler", .text, some []⟩, ⟨"method", .text, some []⟩, ⟨"path", .text, some []⟩,
     ⟨"request_type", .text, some []⟩, ⟨"response_type", .text, some []⟩,
     ⟨"doc", .mapping, some .empty⟩, ⟨"docs", .texts, some []⟩,
     ⟨"at_server_annotation", .mapping, some .empty⟩]

/-- The keys of a kind. -/
def keys (kind : RecordKind) : List Text := kind.columns.map Column.key

/-- What a record is decoded to depends on its fields and on its unknown keys. -/
theorem decode_congr (kind : RecordKind) {members others : Members}
    (same : ∀ column ∈ kind.columns, column.outcome others = column.outcome members)
    (unknown : onlyKeys kind.keys others = onlyKeys kind.keys members) :
    kind.decode others = kind.decode members := by
  cases kind <;>
    simp only [columns, List.forall_mem_cons, Column.outcome, Slot.decode, decode] at same <;>
    simp only [keys, columns, List.map_cons, List.map_nil] at unknown <;>
    simp only [decode, decodeMembers, Metadata.decode, Import.decode, Struct.decode, Field.decode,
      Service.decode, Server.decode, Route.decode, textField, textsField, mapField, same, unknown]

/-- The issues of a record are those of its fields, in their order, and its unknown keys. -/
theorem issues_decode (kind : RecordKind) (members : Members) :
    (kind.decode members).issues =
      (kind.columns.flatMap fun column => (column.outcome members).issues) ++
        (onlyKeys kind.keys members).issues := by
  cases kind <;>
    simp only [decode, decodeMembers, Metadata.decode, Import.decode, Struct.decode, Field.decode,
      Service.decode, Server.decode, Route.decode, textField, textsField, mapField,
      Checked.issues_seq, Checked.issues_map, Checked.issues_seqLeft, columns, keys,
      Column.outcome, Slot.decode, List.flatMap_cons, List.flatMap_nil, List.append_assoc,
      List.nil_append, List.map_cons, List.map_nil]

/-- No two fields of a kind have the same key. -/
theorem nodup_keys (kind : RecordKind) : kind.keys.Nodup := by
  cases kind with
  | spec => exact (default : Spec).areKeys_written.1
  | metadata => exact (default : Metadata).areKeys_written.1
  | file => exact (default : Import).areKeys_written.1
  | struct => exact (default : Struct).areKeys_written.1
  | field => exact (default : Field).areKeys_written.1
  | service => exact (default : Service).areKeys_written.1
  | server => exact (default : Server).areKeys_written.1
  | route => exact (default : Route).areKeys_written.1

/-- A field is known by its key. -/
theorem column_eq_of_key {kind : RecordKind} {column other : Column}
    (isColumn : column ∈ kind.columns) (isOther : other ∈ kind.columns)
    (same : column.key = other.key) : column = other :=
  List.inj_on_of_nodup_map kind.nodup_keys isColumn isOther same

/-- How deep the records inside a record of some kind may be nested. -/
def rank : RecordKind → Nat
  | .spec => 3
  | .file => 2
  | .struct | .service => 1
  | .metadata | .field | .server | .route => 0

/-- The records in a record are nested less deep. -/
theorem rank_lt {kind inner : RecordKind} {column : Column} (isColumn : column ∈ kind.columns)
    (isInner : inner ∈ column.slot.inner?) : inner.rank < kind.rank := by
  have all : kind.columns.all (·.slot.inner?.all (·.rank < kind.rank)) = true := by
    cases kind <;> rfl
  have inside := List.all_eq_true.mp all column isColumn
  rw [isInner] at inside
  simpa using inside

end RecordKind

namespace Column

variable {members others : Members}

/-- Where the same stands under the key of a field, the field is decoded alike. -/
theorem outcome_congr (column : Column)
    (same : Json.member? others column.key = Json.member? members column.key) :
    column.outcome others = column.outcome members := by
  unfold outcome
  split <;> simp only [withDefault, required, same]

/-- What stands under its key is decoded to a field. -/
theorem outcome_of_some {column : Column} {json : Json}
    (isMember : Json.member? members column.key = some json) :
    column.outcome members = (column.slot.decode json).under (.key column.key) := by
  unfold outcome
  split <;> simp only [withDefault, required, isMember]

/-- Where nothing stands under its key a field takes its default. -/
theorem outcome_of_none {column : Column} {value : column.slot.Value}
    (isDefault : column.default = some value) (absent : Json.member? members column.key = none) :
    column.outcome members = .valid value := by
  rw [outcome, isDefault]
  simp only [withDefault, absent]
  rfl

end Column

/-- In a record without issues, issues come up where one field is changed, and no others. -/
theorem RecordKind.issues_changed {kind : RecordKind} {column : Column} {members others : Members}
    (valid : (kind.decode members).issues = []) (isColumn : column ∈ kind.columns)
    (same : ∀ key, key ≠ column.key → Json.member? others key = Json.member? members key)
    (unknown : onlyKeys kind.keys others = onlyKeys kind.keys members) :
    (kind.decode others).issues = (column.outcome others).issues := by
  rw [issues_decode, List.append_eq_nil_iff, List.flatMap_eq_nil_iff] at valid
  obtain ⟨above, below, split⟩ := List.append_of_mem isColumn
  have distinct := kind.nodup_keys
  rw [keys, split, List.map_append, List.map_cons, List.nodup_append, List.nodup_cons] at distinct
  have rest {other : Column} (isOther : other ∈ kind.columns) (apart : other.key ≠ column.key) :
      (other.outcome others).issues = [] := by
    rw [other.outcome_congr (same other.key apart)]
    exact valid.1 other isOther
  have none : (above.flatMap fun other => (other.outcome others).issues) = [] ∧
      (below.flatMap fun other => (other.outcome others).issues) = [] := by
    constructor <;> rw [List.flatMap_eq_nil_iff] <;> intro other member
    · refine rest (by simp [split, member]) ?_
      exact distinct.2.2 _ (List.mem_map_of_mem member) _ List.mem_cons_self
    · refine rest (by simp [split, member]) fun alike => distinct.2.1.1 ?_
      exact alike ▸ List.mem_map_of_mem member
  rw [issues_decode, unknown, valid.2, split, List.flatMap_append, List.flatMap_cons, none.1,
    none.2, List.append_nil, List.append_nil, List.nil_append]

end Spec

end ApiDescription
