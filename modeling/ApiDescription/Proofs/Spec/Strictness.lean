import ApiDescription.Proofs.Spec.OpenMaps
import ApiDescription.Proofs.Spec.Places
import ApiDescription.Proofs.Spec.RoundTrip

/-!
# What decoding refuses and what it puts back

A key that a record does not have is refused wherever the record stands, and it is all that is
refused. Maps are open: an entry that is added to one is an entry of the decoded map. Keys with the
defaults of their fields may be left out, any number of them and at any depth, and are put back.
-/

namespace ApiDescription.Spec

open Json (Members)

section Changes

variable {kind found : RecordKind} {json : Json} {path : List Step} {members : Members}

/-- Changing the value of a key changes what is decoded there and nothing else. -/
theorem RecordKind.issues_update {column : Column} {value : Json}
    (valid : (kind.decode members).issues = []) (isColumn : column ∈ kind.columns)
    (isMember : Json.member? members column.key = some value) (change : Json → Json) :
    (column.slot.decode value).issues = [] ∧
      (kind.decode (members.map fun entry =>
          if entry.1 = column.key then (entry.1, change entry.2) else entry)).issues =
        ((column.slot.decode (change value)).under (.key column.key)).issues := by
  constructor
  · rw [issues_decode, List.append_eq_nil_iff, List.flatMap_eq_nil_iff] at valid
    have none := valid.1 column isColumn
    rwa [Column.outcome_of_some isMember, Checked.issues_under, List.map_eq_nil_iff] at none
  · have keys : (members.map fun entry =>
        if entry.1 = column.key then (entry.1, change entry.2) else entry).map Prod.fst =
          members.map Prod.fst := by
      rw [List.map_map]
      refine List.map_congr_left fun entry _ => ?_
      rw [Function.comp_apply]
      split <;> rfl
    rw [issues_changed valid isColumn (fun key apart => ?_) (by rw [onlyKeys, onlyKeys, keys])]
    · refine congrArg Checked.issues (Column.outcome_of_some ?_)
      rw [Json.member?_update, if_pos rfl, isMember, Option.map_some]
    · rw [Json.member?_update, if_neg apart]

/-- In a value without issues, issues come up where one record is changed, and no others. -/
theorem RecordAt.issues_update (place : RecordAt kind json path found members)
    (valid : (Spec.record kind.decode json).issues = []) (new : Json) :
    (Spec.record kind.decode (json.update path fun _ => new)).issues =
      (Spec.record found.decode new).issues.map fun issue =>
        { issue with path := path ++ issue.path } := by
  induction place with
  | here => exact (List.map_id _).symm
  | @record kind inner found members below column json path isColumn isRecord isMember _
      inductionHypothesis =>
    obtain ⟨key, slot, default⟩ := column
    obtain rfl : slot = .record inner := isRecord
    obtain ⟨inside, changed⟩ :=
      kind.issues_update valid isColumn isMember (Json.update path fun _ => new)
    refine changed.trans ?_
    rw [Checked.issues_under, Slot.decode, inductionHypothesis inside, List.map_map]
    rfl
  | @records kind inner found members below column items position json path isColumn isRecords
      isMember isItem _ inductionHypothesis =>
    obtain ⟨key, slot, default⟩ := column
    obtain rfl : slot = .records inner := isRecords
    obtain ⟨inside, changed⟩ :=
      kind.issues_update valid isColumn isMember
        (Json.update (.index position :: path) fun _ => new)
    have item := Checked.issues_of_mem inside json (List.mem_of_getElem? isItem)
    refine changed.trans ?_
    rw [Checked.issues_under, Slot.decode, Json.update, listOf,
      Checked.issues_each_modify inside isItem, Checked.issues_under, Nat.zero_add,
      inductionHypothesis item, List.map_map, List.map_map]
    rfl

/-- The records in a value without issues have none. -/
theorem RecordAt.issues_eq_nil (place : RecordAt kind json path found members)
    (valid : (Spec.record kind.decode json).issues = []) : (found.decode members).issues = [] := by
  induction place with
  | here => exact valid
  | @record kind inner found members below column json path isColumn isRecord isMember _
      inductionHypothesis =>
    obtain ⟨key, slot, default⟩ := column
    obtain rfl : slot = .record inner := isRecord
    exact inductionHypothesis (kind.issues_update valid isColumn isMember id).1
  | @records kind inner found members below column items position json path isColumn isRecords
      isMember isItem _ inductionHypothesis =>
    obtain ⟨key, slot, default⟩ := column
    obtain rfl : slot = .records inner := isRecords
    have items := (kind.issues_update valid isColumn isMember id).1
    exact inductionHypothesis (Checked.issues_of_mem items json (List.mem_of_getElem? isItem))

end Changes

/-- Each of the keys that are unknown is an issue of its own. -/
theorem issues_unknownKeys (keys : List Text) :
    (unknownKeys keys).issues = keys.map fun key => ⟨[.key key], .unknownKey⟩ := by
  induction keys with
  | nil => rfl
  | cons key rest inductionHypothesis =>
    have first : ((Checked.misfit .unknownKey : Checked Unit).under (.key key) *>
        unknownKeys rest).issues = ⟨[.key key], .unknownKey⟩ :: (unknownKeys rest).issues := by
      cases unknownKeys rest <;> rfl
    rw [unknownKeys, first, inductionHypothesis, List.map_cons]

/-- A key that a record without issues does not have is its only issue. -/
theorem RecordKind.issues_withKey {kind : RecordKind} {before after : Members}
    (valid : (kind.decode (before ++ after)).issues = []) {key : Text} (unknown : key ∉ kind.keys)
    (value : Json) :
    (kind.decode (before ++ (key, value) :: after)).issues = [⟨[.key key], .unknownKey⟩] := by
  rw [issues_decode, List.append_eq_nil_iff, List.flatMap_eq_nil_iff] at valid
  have fields : (kind.columns.flatMap fun column =>
      (column.outcome (before ++ (key, value) :: after)).issues) = [] := by
    refine List.flatMap_eq_nil_iff.mpr fun column isColumn => ?_
    have apart : key ≠ column.key := fun same => unknown (same ▸ List.mem_map_of_mem isColumn)
    rw [column.outcome_congr (Json.member?_insert apart)]
    exact valid.1 column isColumn
  have known : ((before ++ after).map Prod.fst).filter (!kind.keys.contains ·) = [] := by
    have none := valid.2
    rw [onlyKeys, issues_unknownKeys, List.map_eq_nil_iff] at none
    generalize ((before ++ after).map Prod.fst).filter (!kind.keys.contains ·) = others at none ⊢
    cases others with
    | nil => rfl
    | cons other others => simp [List.eraseDups_cons] at none
  rw [List.map_append, List.filter_append, List.append_eq_nil_iff] at known
  have isUnknown : (!kind.keys.contains key) = true := by simpa using unknown
  rw [issues_decode, fields, onlyKeys, issues_unknownKeys, List.map_append, List.map_cons,
    List.filter_append, List.filter_cons, if_pos isUnknown, known.1, known.2]
  rfl

/-- A key that a record does not have is refused wherever the record stands, and nothing else is. -/
theorem RecordAt.decode_withKey {kind found : RecordKind} {json : Json} {path : List Step}
    {before after : Members} (place : RecordAt kind json path found (before ++ after))
    (valid : (Spec.record kind.decode json).issues = []) {key : Text} (unknown : key ∉ found.keys)
    (value : Json) :
    Spec.record kind.decode (json.update path fun _ => .object (before ++ (key, value) :: after)) =
      .invalid [⟨path ++ [.key key], .unknownKey⟩] := by
  refine Checked.eq_invalid (by simp) ?_
  rw [place.issues_update valid, Spec.record,
    found.issues_withKey (place.issues_eq_nil valid) unknown]
  rfl

section Defaults

variable {kind : RecordKind} {members : Members} {dropped : List Step → Bool}

/-- Leaving keys of a record out leaves its unknown keys. -/
theorem onlyKeys_prune {known : List Text} (members : Members)
    (inside : ∀ key, dropped [.key key] = true → key ∈ known) :
    onlyKeys known (Json.pruneMembers dropped members) = onlyKeys known members := by
  have same : ((Json.pruneMembers dropped members).map Prod.fst).filter (!known.contains ·) =
      (members.map Prod.fst).filter (!known.contains ·) := by
    induction members with
    | nil => rfl
    | cons entry rest inductionHypothesis =>
      obtain ⟨key, value⟩ := entry
      rw [Json.pruneMembers]
      split
      · next out =>
        have isKnown := inside key out
        rw [inductionHypothesis]
        simp [isKnown]
      · simp only [List.map_cons, List.filter_cons, inductionHypothesis]
  rw [onlyKeys, onlyKeys, same]

/-- A list is decoded alike if each of its items is decoded alike without its keys that are left
out. -/
theorem each_pruneItems {α : Type} {check : Json → Checked α} {items : List Json} (position : Nat)
    (same : ∀ offset item, items[offset]? = some item →
      check (item.prune fun path => dropped (.index (position + offset) :: path)) = check item) :
    Checked.each check position (Json.pruneItems dropped position items) =
      Checked.each check position items := by
  induction items generalizing position with
  | nil => rfl
  | cons first rest inductionHypothesis =>
    have later : Checked.each check (position + 1) (Json.pruneItems dropped (position + 1) rest) =
        Checked.each check (position + 1) rest := by
      refine inductionHypothesis (position + 1) fun offset item isItem => ?_
      rw [Nat.add_assoc, Nat.add_comm 1]
      exact same (offset + 1) item isItem
    have here := same 0 first rfl
    rw [Nat.add_zero] at here
    rw [Json.pruneItems, Checked.each, Checked.each, later, here]

/-- A value under the key of a field is decoded alike without keys that have defaults, if the
records in it are. -/
theorem Slot.decode_prune {slot : Slot} {value : Json} {inside : List Step → Bool}
    (defaults : ∀ path, inside path = true → DefaultIn slot value path)
    (records : ∀ inner ∈ slot.inner?, ∀ json dropped,
      (∀ path, dropped path = true → DefaultAt inner json path) →
        Spec.record inner.decode (json.prune dropped) = Spec.record inner.decode json) :
    slot.decode (value.prune inside) = slot.decode value := by
  have whole (nothing : ∀ path, inside path ≠ true) : value.prune inside = value :=
    Json.prune_eq_self (fun path => by simpa using nothing path) value
  cases slot with
  | record inner =>
    refine records inner rfl value inside fun path out => ?_
    cases defaults path out with
    | record found => exact found
  | records inner =>
    by_cases isList : ∃ items, value = .list items
    · obtain ⟨items, rfl⟩ := isList
      refine each_pruneItems 0 fun offset item isItem => records inner rfl item _ fun path out => ?_
      rw [Nat.zero_add] at out
      cases defaults _ out with
      | records isJson found =>
        cases isItem.symm.trans isJson
        exact found
    · rw [whole fun path out => ?_]
      cases defaults path out with
      | @records _ items => exact isList ⟨items, rfl⟩
  | text | texts | mapping | truth =>
    -- in other values stand no records, so that nothing is left out
    rw [whole fun path out => nomatch defaults path out]

/-- A record of some kind is decoded alike without any of the keys under which the defaults of their
fields stand, in the record itself and in the records in it. -/
theorem decode_prune {json : Json}
    (defaults : ∀ path, dropped path = true → DefaultAt kind json path) :
    Spec.record kind.decode (json.prune dropped) = Spec.record kind.decode json := by
  -- a record holds records of lower rank only
  induction rank : kind.rank using Nat.strongRecOn generalizing kind json dropped with
  | _ _ inductionHypothesis =>
    subst rank
    cases json with
    | object members =>
      refine kind.decode_congr (fun column isColumn => ?_)
        (onlyKeys_prune members fun key out => (defaults _ out).mem_keys)
      have left : Json.member? (Json.pruneMembers dropped members) column.key = _ :=
        Json.member?_prune dropped
      cases isMember : Json.member? members column.key with
      | none =>
        rw [isMember, Option.map_none, ite_self] at left
        exact column.outcome_congr (left.trans isMember.symm)
      | some value =>
        rw [isMember, Option.map_some] at left
        by_cases out : dropped [.key column.key] = true
        · rw [if_pos out] at left
          obtain ⟨-, default, isDefault, decoded⟩ | inside :=
            (defaults _ out).cases isColumn isMember
          · rw [Column.outcome_of_none isDefault left, Column.outcome_of_some isMember, decoded]
            rfl
          · exact absurd rfl inside.ne_nil
        · rw [if_neg out] at left
          rw [Column.outcome_of_some left, Column.outcome_of_some isMember]
          refine congrArg _ (Slot.decode_prune (fun path isOut => ?_) ?_)
          · obtain ⟨rfl, -⟩ | inside := (defaults _ isOut).cases isColumn isMember
            · exact absurd isOut out
            · exact inside
          · intro inner isInner json dropped defaults
            exact inductionHypothesis inner.rank (RecordKind.rank_lt isColumn isInner) defaults rfl
    | _ => rfl

end Defaults

/-- What is answered to a JSON value: to every text that is read as the value, and so to the text
that any layout calls for. -/
structure Answers (json : Json) (outcome : Checked Spec) : Prop where
  texts : ∀ text, Json.readStrict? text = some json → read text = outcome
  layouts : ∀ layout, ∃ text, Json.print layout json = Text.ofChars text ∧ read text = outcome

/-- What a value is decoded to is answered to its texts. -/
theorem read_eq_decode {text : List Char} {json : Json}
    (isRead : Json.readStrict? text = some json) : read text = decode json := by
  rw [read, isRead]

/-- A plain value that is not nested too deep has texts in all layouts. -/
theorem answers_of_plain {json : Json} (plain : Json.Plain Json.strictDepth json) :
    Answers json (decode json) := by
  refine ⟨fun text => read_eq_decode, fun layout => ?_⟩
  obtain ⟨printed, isRead⟩ := Json.readStrict?_print plain layout
  exact ⟨_, (Text.ofChars_chars printed).symm, read_eq_decode isRead⟩

/-- The texts of a spec may be changed. A key that a record does not have is refused at its place,
whatever stands under it and wherever the record stands, and nothing else is. An entry that is
written into a map is an entry of that map in the spec that is read. Keys under which the defaults
of their fields stand may be left out in any number, and the same spec is read. -/
theorem answers_changed {spec : Spec} (textual : AreTextual spec.strings) :
    (∀ path kind before after, RecordAt .spec spec.encode path kind (before ++ after) →
      ∀ key, key ∉ kind.keys → ∀ value,
        (∀ text, Json.readStrict? text = some (spec.encode.update path fun _ =>
            .object (before ++ (key, value) :: after)) →
          read text = .invalid [⟨path ++ [.key key], .unknownKey⟩]) ∧
        ∀ depth, depth + 1 + path.length = Json.strictDepth →
          key.isTextual = true → Json.Plain depth value →
            Answers (spec.encode.update path fun _ => .object (before ++ (key, value) :: after))
              (.invalid [⟨path ++ [.key key], .unknownKey⟩])) ∧
      (∀ path map values put, MapAt spec path map values put →
        ∀ key text, key.isTextual = true → text.isTextual = true →
          Answers (spec.encode.update path (Json.withEntry map key text))
            (.valid (put (values.insert key text)))) ∧
      ∀ dropped, (∀ path, dropped path = true → DefaultAt .spec spec.encode path) →
        Answers (spec.encode.prune dropped) (.valid spec) := by
  have encodes := Spec.encodes textual 192
  have valid : (Spec.record RecordKind.spec.decode spec.encode).issues = [] :=
    congrArg Checked.issues encodes.decoded
  refine ⟨fun path kind before after place key unknown value => ?_, ?_, ?_⟩
  · have refused := place.decode_withKey valid unknown value
    refine ⟨fun text isRead => (read_eq_decode isRead).trans refused, ?_⟩
    intro depth level keyTextual fits
    have whole : Json.Plain (depth + 1 + path.length) spec.encode := level ▸ encodes.plain
    rw [← refused]
    refine answers_of_plain (level ▸ whole.update ?_)
    cases place.plain whole with
    | object keys plain =>
      simp only [List.forall_mem_append] at keys plain
      constructor <;> simp only [List.forall_mem_append, List.forall_mem_cons]
      · exact ⟨keys.1, keyTextual, keys.2⟩
      · exact ⟨plain.1, fits, plain.2⟩
  · intro path map values put place key text keyTextual textTextual
    have changed := Spec.encodes (place.areTextual textual keyTextual textTextual) 192
    rw [place.update_encode textual keyTextual, ← changed.decoded]
    exact answers_of_plain changed.plain
  · intro dropped defaults
    have same := (decode_prune defaults).trans encodes.decoded
    rw [← same]
    exact answers_of_plain (encodes.plain.prune dropped)

/-- A spec in which records of all kinds occur, with defaults in most of their fields. -/
def bare : Spec where
  imports := [{ value := "base.api",
                types := [{ name := "Base", fields := [{ name := "ID", type := "int64" }] }] }]
  types := [{ name := "User" }]
  services := [{ name := "user-api", routes := [{ handler := "get", path := "/users" }] }]

/-- Keys of the bare spec under which defaults stand. -/
def bareDefaults : List (List Step) :=
  [[.key "info", .key "title"], [.key "types", .index 0, .key "fields"],
   [.key "services", .index 0, .key "server", .key "timeout"],
   [.key "services", .index 0, .key "routes", .index 0, .key "doc"]]

/-- A key that no field has is refused in an imported type, an entry is accepted in enums that have
been left out, and defaults of four kinds of records may be left out together. -/
theorem answers_changed_bare :
    AreTextual bare.strings ∧
      Answers (bare.encode.update
          [.key "imports", .index 0, .key "types", .index 0, .key "fields", .index 0] fun _ =>
            .object [("x", .list []), ("name", .text "ID"), ("type", .text "int64"),
              ("is_inline", .bool false), ("optional", .bool false)])
        (.invalid [⟨[.key "imports", .index 0, .key "types", .index 0, .key "fields", .index 0,
          .key "x"], .unknownKey⟩]) ∧
      Answers (bare.encode.update [.key "types", .index 0] (Json.withEntry "enums" "A" "0"))
        (.valid { bare with types := [{ name := "User", enums := .ofList [("A", "0")] }] }) ∧
      Answers (bare.encode.prune bareDefaults.contains) (.valid bare) := by
  have textual : AreTextual bare.strings :=
    show ∀ text ∈ bare.strings, text.isTextual = true from by decide +kernel
  obtain ⟨refused, accepted, putBack⟩ := answers_changed textual
  refine ⟨textual, ?_, ?_, ?_⟩
  · have place := ((recordAt_file bare 0 rfl).trans (recordAt_importedStruct 0 rfl)).trans
      (recordAt_field 0 rfl)
    exact (refused _ _ [] _ place "x" (by decide +kernel) (.list [])).2 193 rfl (by decide +kernel)
      (.list (List.forall_mem_nil _))
  · exact accepted [.key "types", .index 0] _ _ _ (.enums rfl) "A" "0" (by decide +kernel)
      (by decide +kernel)
  · refine putBack _ fun path out => ?_
    have isDefault : path ∈ bareDefaults := by simpa using out
    simp only [bareDefaults, List.mem_cons, List.not_mem_nil, or_false] at isDefault
    have service := recordAt_service bare 0 rfl
    obtain rfl | rfl | rfl | rfl := isDefault
    · exact (recordAt_info bare).defaultAt 0 rfl rfl rfl rfl
    · exact (recordAt_struct bare 0 rfl).defaultAt 4 rfl rfl rfl rfl
    · exact (service.trans recordAt_server).defaultAt 4 rfl rfl rfl rfl
    · exact (service.trans (recordAt_route 0 rfl)).defaultAt 5 rfl rfl rfl rfl

/-- A lone surrogate anywhere in a spec is all that is reported. -/
theorem not_forall_answers_changed :
    ¬ ∀ (spec : Spec) (path : List Step) (kind : RecordKind) (before after : Members),
      RecordAt .spec spec.encode path kind (before ++ after) →
        ∀ key, key ∉ kind.keys → ∀ layout text,
          Json.print layout (spec.encode.update path fun _ =>
              .object (before ++ (key, .null) :: after)) = Text.ofChars text →
            read text = .invalid [⟨path ++ [.key key], .unknownKey⟩] := by
  intro always
  let members : Members := present ({ version := [.surrogate 0xd800] } : Spec).written
  let text := (Json.print { indent := none, asciiOnly := true }
    (.object (("x", .null) :: members))).chars
  have printed : Json.print { indent := none, asciiOnly := true }
      (.object (("x", .null) :: members)) = Text.ofChars text := by decide +kernel
  have unread : (Json.readStrict? text).isNone = true := by decide +kernel
  have answered := always { version := [.surrogate 0xd800] } [] .spec [] members .here "x"
    (by decide +kernel) _ text printed
  rw [read, Option.isNone_iff_eq_none.mp unread] at answered
  cases answered

end ApiDescription.Spec
