import ApiDescription.Proofs.Json.RoundTrip
import ApiDescription.Proofs.OrderedMap
import ApiDescription.Spec.Decode
import ApiDescription.Spec.Encode
import Mathlib.Data.List.Nodup

/-!
# Fields of records

A record is written as an object that leaves some of its fields out. Whatever is
left out is what decoding takes for an absent field. `Keeps` says so of a single
field; a record keeps its value if all its fields do, under distinct keys.
-/

namespace ApiDescription.Spec

open Json (Members Plain)

variable {α β : Type}

/-- The value of a field as it is written, or none if the field is left out. -/
abbrev Written := Option Json

/-- The members of the fields that are not left out. -/
def present (fields : List (Text × Written)) : Members :=
  fields.filterMap fun field => field.2.map (field.1, ·)

/-- Keys of a record: they are distinct and have no lone surrogates. -/
abbrev AreKeys (keys : List Text) : Prop :=
  keys.Nodup ∧ ∀ key ∈ keys, key.isTextual = true

/-- The texts of distinct strings are keys. -/
theorem areKeys_ofString (names : List String) (distinct : names.Nodup) :
    AreKeys (names.map Text.ofString) := by
  have injective : Function.Injective Text.ofString := fun first second same => by
    have strings := congrArg Text.toString? same
    simpa only [Text.toString?_ofString, Option.some.injEq] using strings
  refine ⟨distinct.map injective, ?_⟩
  exact List.forall_mem_map.mpr fun name _ => Text.isTextual_ofChars name.toList

/-- What is written for a field that is left out when it is empty. -/
def writtenUnless (empty : Bool) (json : Json) : Written := if empty then none else some json

/-- A list that has an item is not left out. -/
theorem writtenUnless_of_getElem? {values : List α} {position : Nat} {value : α} (json : Json)
    (isValue : values[position]? = some value) :
    writtenUnless values.isEmpty json = some json := by
  have notEmpty : values.isEmpty = false :=
    List.isEmpty_eq_false_iff.mpr (List.ne_nil_of_mem (List.mem_of_getElem? isValue))
  rw [writtenUnless, notEmpty]
  rfl

/-- A JSON value stands for a value: it is plain, and it is decoded to that value. -/
structure Encodes (depth : Nat) (decode : Json → Checked α) (json : Json) (value : α) : Prop where
  plain : Plain depth json
  decoded : decode json = .valid value

/-- A field keeps its value: what is written stands for it, and it is left out only if it is
the default. -/
inductive Keeps (depth : Nat) (decode : Json → Checked α) (default : α) : Written → α → Prop
  | shown {json : Json} {value : α} (encodes : Encodes depth decode json value) :
      Keeps depth decode default (some json) value
  | omitted : Keeps depth decode default none default

/-- Without fields nothing is present. -/
theorem present_nil : present [] = [] := rfl

/-- A field that is always written is present. -/
theorem present_shown (key : Text) (json : Json) (rest : List (Text × Written)) :
    present ((key, some json) :: rest) = (key, json) :: present rest := rfl

/-- A field that is left out when it is empty is present otherwise. -/
theorem present_writtenUnless (key : Text) (empty : Bool) (json : Json)
    (rest : List (Text × Written)) :
    present ((key, writtenUnless empty json) :: rest) =
      (if empty then [] else [(key, json)]) ++ present rest := by
  cases empty <;> rfl

section Lookup

variable {fields : List (Text × Written)} {key : Text} {written : Written}

/-- What is present is written for one of the fields. -/
theorem mem_present_iff {entry : Text × Json} :
    entry ∈ present fields ↔ (entry.1, some entry.2) ∈ fields := by
  obtain ⟨key, json⟩ := entry
  constructor
  · intro isMember
    obtain ⟨field, isField, shown⟩ := List.mem_filterMap.mp isMember
    obtain ⟨found, written, same⟩ := Option.map_eq_some_iff.mp shown
    cases same
    rw [← written]
    exact isField
  · exact fun isField => List.mem_filterMap.mpr ⟨_, isField, rfl⟩

/-- What is present under a key is what is written for its field. -/
theorem member?_present (distinct : (fields.map Prod.fst).Nodup) {position : Nat}
    (isField : fields[position]? = some (key, written)) :
    Json.member? (present fields) key = written := by
  have isMember := List.mem_of_getElem? isField
  unfold Json.member?
  cases found : (present fields).reverse.find? fun entry => entry.1 = key with
  | none =>
    have absent := List.find?_eq_none.mp found
    cases written with
    | none => rfl
    | some json =>
      have isPresent : (key, json) ∈ present fields := mem_present_iff.mpr isMember
      exact absurd (decide_eq_true rfl) (absent _ (List.mem_reverse.mpr isPresent))
  | some entry =>
    have sameKey : entry.1 = key := by simpa using List.find?_some found
    have isPresent := mem_present_iff.mp
      (List.mem_reverse.mp (List.mem_of_find?_eq_some found))
    -- No two fields have the same key.
    have same := List.inj_on_of_nodup_map distinct isMember isPresent sameKey.symm
    exact (congrArg Prod.snd same).symm

/-- A record has no other keys than those of its fields. -/
theorem onlyKeys_present (fields : List (Text × Written)) :
    onlyKeys (fields.map Prod.fst) (present fields) = .valid () := by
  have known : ((present fields).map Prod.fst).filter
      (!(fields.map Prod.fst).contains ·) = [] := by
    rw [List.filter_eq_nil_iff]
    intro key isKey
    obtain ⟨entry, isMember, rfl⟩ := List.mem_map.mp isKey
    simpa using List.mem_map_of_mem (f := Prod.fst) (mem_present_iff.mp isMember)
  rw [onlyKeys, known]
  rfl

/-- An optional field that keeps its value is decoded to it. -/
theorem withDefault_present {depth : Nat} {decode : Json → Checked α} {default value : α}
    (keys : AreKeys (fields.map Prod.fst)) (position : Nat)
    (keeps : Keeps depth decode default written value)
    (isField : fields[position]? = some (key, written)) :
    withDefault (present fields) key default decode = .valid value := by
  unfold withDefault
  rw [member?_present keys.1 isField]
  cases keeps with
  | shown encodes => exact congrArg (Checked.under (.key key)) encodes.decoded
  | omitted => rfl

/-- A required field that keeps its value is decoded to it. -/
theorem required_present {depth : Nat} {decode : Json → Checked α} {json : Json} {value : α}
    (keys : AreKeys (fields.map Prod.fst)) (position : Nat)
    (encodes : Encodes depth decode json value)
    (isField : fields[position]? = some (key, some json)) :
    required (present fields) key decode = .valid value := by
  unfold required
  rw [member?_present keys.1 isField]
  exact congrArg (Checked.under (.key key)) encodes.decoded

/-- A record whose fields are decoded is decoded, because it has no other keys. -/
theorem seqLeft_onlyKeys {checked : Checked α} {value : α} {known : List Text}
    (fits : known = fields.map Prod.fst) (decoded : checked = .valid value) :
    checked <* onlyKeys known (present fields) = .valid value := by
  rw [fits, onlyKeys_present, decoded]
  rfl

end Lookup

/-- What is written for a field that is not left out is plain. -/
theorem Encodes.plain_shown {depth : Nat} {decode : Json → Checked α} {json : Json} {value : α}
    (encodes : Encodes depth decode json value) : ∀ shown ∈ some json, Plain depth shown := by
  intro shown isShown
  cases isShown
  exact encodes.plain

namespace Keeps

variable {depth : Nat} {decode : Json → Checked α} {default value : α}

/-- What is written for a field that keeps its value is plain. -/
theorem plain {written : Written} (keeps : Keeps depth decode default written value) :
    ∀ json ∈ written, Plain depth json := by
  cases keeps with
  | shown encodes => exact encodes.plain_shown
  | omitted => exact fun _ isNone => nomatch isNone

/-- A field may be left out when it is empty if the default is the only empty value. -/
theorem omittable {empty : Bool} {json : Json} (isDefault : empty = true → value = default)
    (encodes : Encodes depth decode json value) :
    Keeps depth decode default (Spec.writtenUnless empty json) value := by
  cases empty with
  | false => exact .shown encodes
  | true =>
    rw [isDefault rfl]
    exact .omitted

end Keeps

namespace Encodes

variable {depth : Nat}

/-- A text stands for itself. -/
theorem text {value : Text} (textual : value.isTextual = true) :
    Encodes depth Json.checkText (.text value) value :=
  ⟨.text textual, rfl⟩

/-- A truth value stands for itself. -/
theorem truth (value : Bool) : Encodes depth Spec.truth (.bool value) value :=
  ⟨.bool value, rfl⟩

/-- Items that stand for values are decoded to these values, wherever their numbers begin. -/
theorem each {decode : Json → Checked α} {encode : α → Json} {values : List α}
    (encodes : ∀ value ∈ values, Encodes depth decode (encode value) value) (position : Nat) :
    Checked.each decode position (values.map encode) = .valid values := by
  induction values generalizing position with
  | nil => rfl
  | cons first rest inductionHypothesis =>
    rw [List.forall_mem_cons] at encodes
    rw [List.map_cons, Checked.each, encodes.1.decoded, inductionHypothesis encodes.2]
    rfl

/-- A list stands for values if its items do. -/
theorem list {decode : Json → Checked α} {encode : α → Json} {values : List α}
    (encodes : ∀ value ∈ values, Encodes depth decode (encode value) value) :
    Encodes (depth + 1) (listOf decode) (.list (values.map encode)) values :=
  ⟨.list (List.forall_mem_map.mpr fun value isValue => (encodes value isValue).plain),
    each encodes 0⟩

/-- A list of texts stands for these texts. -/
theorem texts {values : List Text} (textual : ∀ value ∈ values, value.isTextual = true) :
    Encodes (depth + 1) (listOf Json.checkText) (Spec.texts values) values :=
  list fun value isValue => text (textual value isValue)

/-- An object stands for a record if its fields are plain and its members are decoded to the
record. -/
theorem record {fields : List (Text × Written)} {decode : Members → Checked α} {value : α}
    (keys : AreKeys (fields.map Prod.fst))
    (plain : ∀ field ∈ fields, ∀ json ∈ field.2, Plain depth json)
    (decoded : decode (present fields) = .valid value) :
    Encodes (depth + 1) (Spec.record decode) (.object (present fields)) value := by
  refine ⟨.object (fun entry isMember => ?_) (fun entry isMember => ?_), decoded⟩
  · exact keys.2 _ (List.mem_map_of_mem (mem_present_iff.mp isMember))
  · exact plain _ (mem_present_iff.mp isMember) _ rfl

end Encodes

/-- A map whose keys have no lone surrogates has nothing to replace. -/
theorem withTextualKeys_eq_self {values : Properties}
    (textual : ∀ entry ∈ values.entries, entry.1.isTextual = true) :
    withTextualKeys values = values := by
  have same : values.entries.map (fun entry => (entry.1.replaceSurrogates, entry.2)) =
      values.entries := by
    refine (List.map_congr_left fun entry isEntry => ?_).trans (List.map_id _)
    rw [Text.replaceSurrogates_eq_self (textual entry isEntry)]
    rfl
  rw [withTextualKeys, same, OrderedMap.ofList_entries]

/-- The entries of a map of texts are decoded to themselves. -/
theorem checkEntries_map (entries : List (Text × Text)) :
    Json.checkEntries (entries.map fun entry => (entry.1, .text entry.2)) = .valid entries := by
  induction entries with
  | nil => rfl
  | cons entry rest inductionHypothesis =>
    rw [List.map_cons, Json.checkEntries, inductionHypothesis]
    rfl

/-- Only the map without entries is empty. -/
theorem eq_empty_of_isEmpty {values : Properties} (isEmpty : values.isEmpty = true) :
    values = .empty :=
  OrderedMap.ext_entries (List.isEmpty_iff.mp isEmpty)

/-- An object of texts stands for the map of these texts. -/
theorem Encodes.mapping {depth : Nat} {values : Properties}
    (textual : ∀ entry ∈ values.entries, entry.1.isTextual = true ∧ entry.2.isTextual = true) :
    Encodes (depth + 1) mapOfTexts (Spec.mapping values) values := by
  have same := withTextualKeys_eq_self fun entry isEntry => (textual entry isEntry).1
  unfold Spec.mapping
  rw [same]
  refine ⟨.object ?_ ?_, ?_⟩
  · exact List.forall_mem_map.mpr fun entry isEntry => (textual entry isEntry).1
  · exact List.forall_mem_map.mpr fun entry isEntry => .text (textual entry isEntry).2
  · rw [mapOfTexts, checkEntries_map]
    exact congrArg Checked.valid (OrderedMap.ofList_entries values)

namespace Keeps

variable {depth : Nat}

/-- A text field that is always written keeps its text. -/
theorem always {value : Text} (textual : value.isTextual = true) :
    Keeps depth Json.checkText [] (some (.text value)) value :=
  .shown (.text textual)

/-- A text field that is left out when it is empty keeps its text. -/
theorem unlessBlank {value : Text} (textual : value.isTextual = true) :
    Keeps depth Json.checkText [] (writtenUnless value.isEmpty (.text value)) value :=
  .omittable List.isEmpty_iff.mp (.text textual)

/-- A list that is left out when it is empty keeps its items. -/
theorem unlessNone {decode : Json → Checked (List α)} {json : Json} {values : List α}
    (encodes : Encodes depth decode json values) :
    Keeps depth decode [] (writtenUnless values.isEmpty json) values :=
  .omittable List.isEmpty_iff.mp encodes

/-- A map that is left out when it is empty keeps its entries. -/
theorem unlessEmpty {values : Properties}
    (textual : ∀ entry ∈ values.entries, entry.1.isTextual = true ∧ entry.2.isTextual = true) :
    Keeps (depth + 1) mapOfTexts .empty (writtenUnless values.isEmpty (mapping values)) values :=
  .omittable eq_empty_of_isEmpty (.mapping textual)

end Keeps

end ApiDescription.Spec
