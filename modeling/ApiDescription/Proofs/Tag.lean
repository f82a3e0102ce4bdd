import ApiDescription.Proofs.TagSearch
import ApiDescription.Spec.OfDocument
import Mathlib.Data.List.Forall2

/-!
# Tags are read as they are written

An entry begins with a key and ends with a quote, and neither its name nor its options hold a
quote. The search for the leftmost entry therefore finds the first one at the start of the text
and stops right behind it, where a blank keeps the next key apart. What marks a member optional is
an option of an entry, whole and under the right key, and nothing else in the tag.
-/

namespace ApiDescription

namespace Tag

/-- A text that may stand between the quotes and commas of an entry. -/
def IsPart (part : Text) : Prop :=
  ∀ mark ∈ ['"', '\\', ',', '\x60'], CodePoint.char mark ∉ part

instance (part : Text) : Decidable (IsPart part) :=
  List.decidableBAll (CodePoint.char · ∉ part) ['"', '\\', ',', '\x60']

/-- A text that begins and ends with something else than a blank. -/
structure IsTrimmed (part : Text) : Prop where
  first : ∀ point ∈ part.head?, point.satisfies Text.isBlank = false
  last : ∀ point ∈ part.getLast?, point.satisfies Text.isBlank = false

instance (part : Text) : Decidable (IsTrimmed part) :=
  decidable_of_iff
    ((∀ point ∈ part.head?, point.satisfies Text.isBlank = false) ∧
      ∀ point ∈ part.getLast?, point.satisfies Text.isBlank = false)
    ⟨fun ⟨first, last⟩ => ⟨first, last⟩, fun ⟨first, last⟩ => ⟨first, last⟩⟩

end Tag

/-- An entry that can be written down. The name may begin and end with blanks, and so may not the
options, which lose theirs. -/
structure TagEntry.Writable (entry : TagEntry) : Prop where
  key : Tag.IsKey entry.key
  name : Tag.IsPart entry.name
  options : ∀ option ∈ entry.options, Tag.IsPart option ∧ Tag.IsTrimmed option

instance (entry : TagEntry) : Decidable entry.Writable :=
  decidable_of_iff
    (Tag.IsKey entry.key ∧ Tag.IsPart entry.name ∧
      ∀ option ∈ entry.options, Tag.IsPart option ∧ Tag.IsTrimmed option)
    ⟨fun ⟨key, name, options⟩ => ⟨key, name, options⟩,
      fun ⟨key, name, options⟩ => ⟨key, name, options⟩⟩

/-- The members a declaration has. -/
def TypeDecl.members : TypeDecl → List Member
  | .struct _ members _ => members
  | .alias .. => []

namespace Tag

/-- What an entry has between its quotes. -/
def valueOf (entry : TagEntry) : Text :=
  [CodePoint.char ','].intercalate (entry.name :: entry.options)

/-- Whether entries mark their member optional: one that counts for bodies or forms has the
option. -/
def MarkOptional (entries : List TagEntry) : Prop :=
  ∃ entry ∈ entries, (entry.key = Text.ofString "json" ∨ entry.key = Text.ofString "form") ∧
    Text.ofString "optional" ∈ entry.options

instance (entries : List TagEntry) : Decidable (MarkOptional entries) :=
  inferInstanceAs (Decidable (∃ entry ∈ entries, _ ∧ _))

/-- A tag that holds just these entries, with the backticks around it or without them. -/
def Holds (tag : Text) (entries : List TagEntry) : Prop :=
  tag = render entries ∨ tag = renderBody entries

/-- An entry is its key, a colon and its value between quotes. -/
theorem renderEntry_append (entry : TagEntry) (rest : Text) :
    renderEntry entry ++ rest =
      entry.key ++ .char ':' :: .char '"' :: (valueOf entry ++ .char '"' :: rest) := by
  simp [renderEntry, valueOf, Text.ofString, Text.ofChars]

/-- Of several entries every one but the first stands behind a blank. -/
theorem renderBody_cons (entry : TagEntry) (entries : List TagEntry) :
    renderBody (entry :: entries) =
      renderEntry entry ++ entries.flatMap fun other => .char ' ' :: renderEntry other := by
  induction entries generalizing entry with
  | nil => simp [renderBody]
  | cons other entries inductionHypothesis =>
    have split : renderBody (entry :: other :: entries) =
        renderEntry entry ++ .char ' ' :: renderBody (other :: entries) := by
      simp [renderBody, List.intercalate]
    rw [split, inductionHypothesis]
    rfl

/-- What joined texts hold is a separator or stands in one of them. -/
theorem mem_intercalate {separator point : CodePoint} {parts : List Text}
    (member : point ∈ [separator].intercalate parts) :
    point = separator ∨ ∃ part ∈ parts, point ∈ part := by
  induction parts with
  | nil => simp at member
  | cons part parts inductionHypothesis =>
    cases parts with
    | nil => exact .inr ⟨part, List.mem_cons_self, by simpa using member⟩
    | cons other parts =>
      rw [List.intercalate_cons_cons] at member
      simp only [List.mem_append, List.mem_singleton] at member
      rcases member with (inPart | isSeparator) | later
      · exact .inr ⟨part, List.mem_cons_self, inPart⟩
      · exact .inl isSeparator
      · rcases inductionHypothesis later with isSeparator | ⟨found, isPart, inPart⟩
        · exact .inl isSeparator
        · exact .inr ⟨found, List.mem_cons_of_mem _ isPart, inPart⟩

/-- Without quotes and backslashes a text may stand between quotes. -/
theorem isValue_of_not_mem {value : Text} (noQuote : .char '"' ∉ value)
    (noBackslash : .char '\\' ∉ value) : IsValue value := by
  induction value with
  | nil => exact .empty
  | cons point value inductionHypothesis =>
    rw [List.mem_cons, not_or] at noQuote noBackslash
    exact .plain (Ne.symm noQuote.1) (Ne.symm noBackslash.1)
      (inductionHypothesis noQuote.2 noBackslash.2)

end Tag

namespace TagEntry.Writable

open Tag

variable {entry : TagEntry}

/-- The marks that delimit entries do not stand between the quotes of one. -/
theorem not_mem_valueOf (writable : entry.Writable) {mark : Char}
    (delimits : mark ∈ ['"', '\\', '\x60']) : .char mark ∉ valueOf entry := by
  intro member
  have isMark : mark ∈ ['"', '\\', ',', '\x60'] := by
    revert delimits
    simp only [List.mem_cons, List.not_mem_nil, or_false]
    tauto
  rcases mem_intercalate member with isComma | ⟨part, isPart, inPart⟩
  · obtain rfl := CodePoint.char.inj isComma
    simp at delimits
  · rcases List.mem_cons.mp isPart with rfl | isOption
    · exact writable.name mark isMark inPart
    · exact (writable.options part isOption).1 mark isMark inPart

/-- An entry that is written down is one that begins there, and nothing behind it belongs to it. -/
theorem opens (writable : entry.Writable) (rest : Text) :
    Opens (renderEntry entry ++ rest) entry.key (valueOf entry) rest where
  isKey := writable.key
  isValue := isValue_of_not_mem (writable.not_mem_valueOf (by simp))
    (writable.not_mem_valueOf (by simp))
  whole := renderEntry_append entry rest

/-- A round reads an entry where it begins. -/
theorem entryRound_append (writable : entry.Writable) (rest : Text) :
    entryRound (renderEntry entry ++ rest) = .ok (some (entry.key, valueOf entry)) rest := by
  rw [entryRound, leftmost?_eq_some_iff.mpr (writable.opens rest).leads]

/-- The entry with the key and the value that were written is the entry. -/
theorem entryOf (writable : entry.Writable) : Tag.entryOf entry.key (valueOf entry) = entry := by
  have apart : ∀ part ∈ entry.name :: entry.options, CodePoint.char ',' ∉ part := by
    refine List.forall_mem_cons.mpr ⟨writable.name ',' (by simp), fun option isOption => ?_⟩
    exact (writable.options option isOption).1 ',' (by simp)
  have trimmed : entry.options.map Text.trim = entry.options := by
    have each (option : Text) (isOption : option ∈ entry.options) : Text.trim option = option :=
      Text.trimWhile_eq_self (writable.options option isOption).2.first
        (writable.options option isOption).2.last
    rw [List.map_congr_left each, List.map_id']
  rw [Tag.entryOf, valueOf, Text.splitOn_intercalate _ apart (by simp)]
  simp only [trimmed]

end TagEntry.Writable

namespace Tag

variable {entries : List TagEntry}

/-- A blank in front of an entry is passed over. -/
theorem entryRound_blank (text : Text) : entryRound (.char ' ' :: text) = entryRound text := by
  have noKey : entryHere? (.char ' ' :: text) = none := by
    rw [entryHere?, if_neg (by decide)]
  rw [entryRound, leftmost?, noKey, ← entryRound]

/-- Entries behind blanks are read one by one. -/
theorem rounds_behind (writable : ∀ entry ∈ entries, entry.Writable) :
    Rounds entryRound (entries.flatMap fun entry => .char ' ' :: renderEntry entry)
      (entries.map fun entry => (entry.key, valueOf entry)) [] := by
  induction entries with
  | nil => exact .none []
  | cons entry entries inductionHypothesis =>
    rw [List.forall_mem_cons] at writable
    refine .more ?_ (inductionHypothesis writable.2)
    rw [List.flatMap_cons, List.cons_append, entryRound_blank, writable.1.entryRound_append]

/-- The entries of a tag are read one by one. -/
theorem rounds_renderBody (writable : ∀ entry ∈ entries, entry.Writable) :
    Rounds entryRound (renderBody entries)
      (entries.map fun entry => (entry.key, valueOf entry)) [] := by
  cases entries with
  | nil => exact .none []
  | cons entry entries =>
    rw [List.forall_mem_cons] at writable
    refine .more ?_ (rounds_behind writable.2)
    rw [renderBody_cons, writable.1.entryRound_append]

/-- What neither begins nor continues keys stands in none. -/
theorem IsKey.not_mem {key : Text} (isKey : IsKey key) {point : CodePoint}
    (noBegin : beginsKey point = false) (notInside : inKey point = false) : point ∉ key := by
  cases key with
  | nil => exact List.not_mem_nil
  | cons first rest =>
    obtain ⟨begins, inside⟩ := isKey
    intro member
    rcases List.mem_cons.mp member with rfl | later
    · simp [noBegin] at begins
    · exact absurd (inside point later) (by simp [notInside])

/-- Backticks stand around entries, not in them. -/
theorem backtick_not_mem_renderBody (writable : ∀ entry ∈ entries, entry.Writable) :
    CodePoint.char '\x60' ∉ renderBody entries := by
  intro member
  rcases mem_intercalate member with isBlank | ⟨part, isPart, inPart⟩
  · simp at isBlank
  · obtain ⟨entry, isEntry, rfl⟩ := List.mem_map.mp isPart
    have notInKey : CodePoint.char '\x60' ∉ entry.key :=
      (writable entry isEntry).key.not_mem (by decide +kernel) (by decide +kernel)
    have notInValue : CodePoint.char '\x60' ∉ valueOf entry :=
      (writable entry isEntry).not_mem_valueOf (by simp)
    rw [← List.append_nil (renderEntry entry), renderEntry_append] at inPart
    simp [notInKey, notInValue] at inPart

/-- The backticks around a tag do not count. -/
theorem Holds.trimWhile_eq (writable : ∀ entry ∈ entries, entry.Writable) {tag : Text}
    (holds : Holds tag entries) :
    Text.trimWhile (· = .char '\x60') tag = renderBody entries := by
  have stays : Text.trimWhile (· = .char '\x60') (renderBody entries) = renderBody entries := by
    have other (point : CodePoint) (member : point ∈ renderBody entries) :
        decide (point = .char '\x60') = false := by
      rw [decide_eq_false_iff_not]
      rintro rfl
      exact backtick_not_mem_renderBody writable member
    exact Text.trimWhile_eq_self (fun point first => other point (List.mem_of_mem_head? first))
      fun point last => other point (List.mem_of_getLast? last)
  rcases holds with rfl | rfl
  · have enclosed : Text.trimWhile (· = .char '\x60') (render entries) =
        Text.trimWhile (· = .char '\x60') (renderBody entries) :=
      Text.trimWhile_enclosed (renderBody entries) (by simp) (by simp)
    rw [enclosed, stays]
  · exact stays

/-- A tag is read as the entries that were written. -/
theorem Holds.parse_eq (writable : ∀ entry ∈ entries, entry.Writable) {tag : Text}
    (holds : Holds tag entries) : parse tag = entries := by
  have found : (collect entryRound (renderBody entries)).items =
      entries.map fun entry => (entry.key, valueOf entry) := by
    have ended : entryRound [] = roundEnd none [] := rfl
    rw [(collect_eq_iff shrinks_entryRound.within trivial).mpr
      ⟨[], rounds_renderBody writable, ended⟩]
  have each (entry : TagEntry) (isEntry : entry ∈ entries) :
      entryOf entry.key (valueOf entry) = entry := (writable entry isEntry).entryOf
  simp only [parse, holds.trimWhile_eq writable, found, List.map_map, Function.comp_def]
  rw [List.map_congr_left each, List.map_id']

/-- The fields of the normal form are the members of all structs in their order. -/
theorem fields_ofDocument (document : Document) :
    (Spec.ofDocument document).types.flatMap (·.fields) =
      (document.types.flatMap TypeDecl.members).map Spec.Field.ofMember := by
  have each (decls : List TypeDecl) :
      (decls.filterMap Spec.Struct.ofDecl?).flatMap (·.fields) =
        (decls.flatMap TypeDecl.members).map Spec.Field.ofMember := by
    induction decls with
    | nil => rfl
    | cons decl decls inductionHypothesis =>
      cases decl with
      | «struct» name members docs =>
        rw [List.flatMap_cons, List.map_append, ← inductionHypothesis]
        rfl
      | «alias» name target docs => exact inductionHypothesis
  exact each document.types

/-- A member is optional if the entries that are read from its tag mark it so. -/
theorem isOptional_iff (member : Member) :
    member.isOptional = true ↔ MarkOptional (parse member.tag) := by
  simp only [Member.isOptional, optionalKeys, List.any_eq_true, Bool.and_eq_true,
    List.contains_iff_mem, List.mem_cons, List.not_mem_nil, or_false, MarkOptional]

/-- A tag that is written down is read as the entries it was made of, with the backticks around it
or without them. A member with this tag is optional, and the field it becomes, if an entry for
JSON bodies or forms has `optional` among its options. -/
theorem parse_render (writable : ∀ entry ∈ entries, entry.Writable) :
    parse (render entries) = entries ∧ parse (renderBody entries) = entries ∧
      (∀ member : Member, Holds member.tag entries →
        (member.isOptional = true ↔ MarkOptional entries)) ∧
      ∀ document : Document, List.Forall₂
        (fun field member => Holds member.tag entries →
          (field.optional = true ↔ MarkOptional entries))
        ((Spec.ofDocument document).types.flatMap (·.fields))
        (document.types.flatMap TypeDecl.members) := by
  have marks (member : Member) (holds : Holds member.tag entries) :
      (Spec.Field.ofMember member).optional = true ↔ MarkOptional entries := by
    rw [Spec.Field.ofMember, isOptional_iff, holds.parse_eq writable]
  refine ⟨Holds.parse_eq writable (.inl rfl), Holds.parse_eq writable (.inr rfl), marks, ?_⟩
  intro document
  rw [fields_ofDocument, List.forall₂_map_left_iff, List.forall₂_same]
  exact fun member _ => marks member

/-- Neither a name, nor another key, nor a longer option marks a member optional. -/
theorem parse_render_user :
    let entries : List TagEntry :=
      [⟨"json", "optional", ["optionally", [], "default=a b"]⟩, ⟨"path", [], ["optional"]⟩,
        ⟨"form-2_x", " ", []⟩]
    parse (render entries) = entries ∧
      ∀ member : Member, member.tag = render entries → member.isOptional = false := by
  intro entries
  have writable : ∀ entry ∈ entries, entry.Writable := by decide +kernel
  obtain ⟨enclosed, -, marks, -⟩ := parse_render writable
  refine ⟨enclosed, fun member written => ?_⟩
  rw [← Bool.not_eq_true, marks member (.inl written)]
  decide +kernel

end Tag

end ApiDescription
