import ApiDescription.Proofs.Spec.Records

/-!
# Control characters

What is printed for a spec shows no control characters but line feeds, because strings
escape them and nothing else can hold one. A stream that takes control sequences out of
what it shows therefore shows a printed spec as it is.
-/

namespace ApiDescription

/-- A code point that is no control character, or a line feed. -/
def CodePoint.IsShown (point : CodePoint) : Prop :=
  ∀ c, point = .char c → 32 ≤ c.toNat ∨ c = '\n'

/-- A text without control characters but line feeds. -/
def Text.IsShown (text : Text) : Prop := ∀ point ∈ text, point.IsShown

namespace Text.IsShown

/-- Texts in turn show what they show alone. -/
theorem append {first second : Text} (shows : IsShown first) (showsNext : IsShown second) :
    IsShown (first ++ second) :=
  List.forall_mem_append.mpr ⟨shows, showsNext⟩

/-- A character in front of a text is shown with it. -/
theorem cons {c : Char} {text : Text} (shown : 32 ≤ c.toNat) (shows : IsShown text) :
    IsShown (.char c :: text) :=
  List.forall_mem_cons.mpr ⟨fun _ same => .inl (CodePoint.char.inj same ▸ shown), shows⟩

/-- Characters that are no control characters are shown. -/
theorem ofChars {letters : List Char} (shown : ∀ c ∈ letters, 32 ≤ c.toNat) :
    IsShown (Text.ofChars letters) :=
  List.forall_mem_map.mpr fun c isLetter _ same =>
    .inl (CodePoint.char.inj same ▸ shown c isLetter)

/-- A word is shown if all of its characters are. -/
theorem ofWord {letters : List Char} (shown : (letters.all fun c => 32 ≤ c.toNat) = true) :
    IsShown (Text.ofChars letters) :=
  ofChars (by simpa using shown)

end Text.IsShown

namespace Json

variable {layout : Layout} {asciiOnly : Bool}

/-- Values without numbers. -/
inductive Numberless : Json → Prop
  | null : Numberless .null
  | bool (value : Bool) : Numberless (.bool value)
  | text (value : Text) : Numberless (.text value)
  | list {items : List Json} (numberless : ∀ item ∈ items, Numberless item) :
      Numberless (.list items)
  | object {members : Members} (numberless : ∀ entry ∈ members, Numberless entry.2) :
      Numberless (.object members)

/-- Hexadecimal digits are no control characters. -/
theorem le_toNat_of_mem_hexDigits {width value : Nat} {c : Char}
    (isDigit : c ∈ Text.hexDigits width value) : 32 ≤ c.toNat := by
  have digit : ∀ value < 16, 32 ≤ (Text.hexDigit value).toNat := by decide
  induction width generalizing value with
  | zero => cases isDigit
  | succ width inductionHypothesis =>
    rw [Text.hexDigits, List.mem_append, List.mem_singleton] at isDigit
    rcases isDigit with earlier | rfl
    · exact inductionHypothesis earlier
    · exact digit _ (Nat.mod_lt value (by decide))

/-- The escape of a unit is written without control characters. -/
theorem le_toNat_of_mem_escapeUnit {unit : Nat} {c : Char} (written : c ∈ escapeUnit unit) :
    32 ≤ c.toNat := by
  rw [escapeUnit, List.mem_cons, List.mem_cons] at written
  rcases written with rfl | rfl | isDigit
  · decide
  · decide
  · exact le_toNat_of_mem_hexDigits isDigit

/-- A character of a string is written without control characters. -/
theorem le_toNat_of_mem_escapeChar {c : Char} :
    ∀ shown ∈ escapeChar asciiOnly c, 32 ≤ shown.toNat := by
  rcases Reader.escapeChar_cases asciiOnly c with ⟨letter, short, written⟩ | ⟨-, written⟩ |
    ⟨-, written⟩ | ⟨-, -, noControl, -, written⟩
  · have isLetter : 32 ≤ letter.toNat := by
      unfold Reader.shortEscape? at short
      split at short <;> first | decide | cases short
    rw [written, List.forall_mem_cons, List.forall_mem_singleton]
    exact ⟨by decide, isLetter⟩
  · rw [written]
    exact fun _ => le_toNat_of_mem_escapeUnit
  · rw [written, escapeWide]
    split
    · exact fun _ => le_toNat_of_mem_escapeUnit
    · exact List.forall_mem_append.mpr
        ⟨fun _ => le_toNat_of_mem_escapeUnit, fun _ => le_toNat_of_mem_escapeUnit⟩
  · rw [written, List.forall_mem_singleton]
    exact Nat.not_lt.mp noControl

/-- A printed string has no control characters. -/
theorem isShown_printText (asciiOnly : Bool) (text : Text) :
    (printText asciiOnly text).IsShown := by
  have inner : Text.IsShown (text.flatMap (escapePoint asciiOnly)) := by
    intro shown isShown
    obtain ⟨point, -, written⟩ := List.mem_flatMap.mp isShown
    cases point with
    | char c => exact Text.IsShown.ofChars le_toNat_of_mem_escapeChar shown written
    | surrogate unit =>
      rw [escapePoint] at written
      split at written
      · exact Text.IsShown.ofChars (fun _ => le_toNat_of_mem_escapeUnit) shown written
      · rw [List.mem_singleton.mp written]
        intro c same
        cases same
  exact .cons (by decide) (inner.append (.cons (by decide) (List.forall_mem_nil _)))

/-- A line break is a line feed and blanks. -/
theorem isShown_lineBreak (layout : Layout) (level : Nat) : (layout.lineBreak level).IsShown := by
  unfold Layout.lineBreak
  cases layout.indent with
  | none => exact List.forall_mem_nil _
  | some width =>
    refine List.forall_mem_cons.mpr ⟨fun _ same => .inr (CodePoint.char.inj same).symm, ?_⟩
    intro point isBlank _ same
    rw [List.eq_of_mem_replicate isBlank] at same
    exact .inl (CodePoint.char.inj same ▸ by decide)

/-- Parts without control characters have none between brackets. -/
theorem isShown_bracketed {level : Nat} {opening closing : Char} {parts : List Text}
    (opens : 32 ≤ opening.toNat) (closes : 32 ≤ closing.toNat)
    (shown : ∀ part ∈ parts, part.IsShown) :
    (layout.bracketed level opening closing parts).IsShown := by
  have closed : Text.IsShown [.char closing] := .cons closes (List.forall_mem_nil _)
  cases parts with
  | nil => exact .cons opens closed
  | cons first rest =>
    rw [List.forall_mem_cons] at shown
    have breaks := isShown_lineBreak layout
    have later : Text.IsShown (rest.flatMap fun part =>
        .char ',' :: layout.lineBreak (level + 1) ++ part) := by
      intro point isShown
      obtain ⟨part, isPart, written⟩ := List.mem_flatMap.mp isShown
      exact (Text.IsShown.cons (by decide) (breaks _)).append (shown.2 part isPart) point written
    exact ((((Text.IsShown.cons opens (breaks _)).append shown.1).append later).append
      (breaks _)).append closed

/-- A value without numbers is printed without control characters. -/
theorem Numberless.isShown_printAt {value : Json} (numberless : Numberless value)
    (level : Nat) : (printAt layout level value).IsShown := by
  induction numberless generalizing level with
  | null => exact @Text.IsShown.ofWord ['n', 'u', 'l', 'l'] rfl
  | bool value =>
    cases value with
    | true => exact @Text.IsShown.ofWord ['t', 'r', 'u', 'e'] rfl
    | false => exact @Text.IsShown.ofWord ['f', 'a', 'l', 's', 'e'] rfl
  | text value => exact isShown_printText _ value
  | @list items _ inductionHypothesis =>
    rw [printAt_list]
    exact isShown_bracketed (by decide) (by decide) <|
      List.forall_mem_map.mpr fun item isItem => inductionHypothesis item isItem _
  | @object members _ inductionHypothesis =>
    have colon : layout.colon.IsShown := by
      unfold Layout.colon
      split
      · exact @Text.IsShown.ofWord [':'] rfl
      · exact @Text.IsShown.ofWord [':', ' '] rfl
    rw [printAt_object]
    exact isShown_bracketed (by decide) (by decide) <|
      List.forall_mem_map.mpr fun entry isMember =>
        ((isShown_printText _ _).append colon).append (inductionHypothesis entry isMember _)

end Json

namespace Spec

open Json (Numberless)

/-- Encoded records have no numbers if none of them has. -/
theorem numberless_map {α : Type} {encode : α → Json}
    (numberless : ∀ value, Numberless (encode value)) (values : List α) :
    Numberless (.list (values.map encode)) :=
  .list (List.forall_mem_map.mpr fun value _ => numberless value)

/-- A map of texts has no numbers. -/
theorem numberless_mapping (values : Properties) : Numberless (mapping values) :=
  .object (List.forall_mem_map.mpr fun entry _ => .text entry.2)

/-- What is written for a field has no numbers. -/
def Written.IsNumberless (written : Written) : Prop :=
  ∀ json, written = some json → Numberless json

/-- A field that is always written. -/
theorem isNumberless_some {json : Json} (numberless : Numberless json) :
    Written.IsNumberless (some json) :=
  fun _ same => Option.some.inj same ▸ numberless

/-- A field that may be left out. -/
theorem isNumberless_writtenUnless {empty : Bool} {json : Json} (numberless : Numberless json) :
    Written.IsNumberless (writtenUnless empty json) := by
  cases empty with
  | true => exact fun _ absent => nomatch absent
  | false => exact isNumberless_some numberless

/-- A record has no numbers if none is written for its fields. -/
theorem numberless_record {fields : List (Text × Written)}
    (numberless : ∀ field ∈ fields, field.2.IsNumberless) : Numberless (.object (present fields)) :=
  .object fun _ isMember => numberless _ (mem_present_iff.mp isMember) _ rfl

/-- The metadata have no numbers. -/
theorem Metadata.numberless (info : Metadata) : Numberless info.encode := by
  rw [encode_eq]
  apply numberless_record
  simp [written, isNumberless_some, Numberless.text, numberless_mapping]

/-- A field has no numbers. -/
theorem Field.numberless (field : Field) : Numberless field.encode := by
  rw [encode_eq]
  apply numberless_record
  simp [written, isNumberless_some, isNumberless_writtenUnless, texts, Numberless.text,
    Numberless.bool, numberless_map]

/-- A struct has no numbers. -/
theorem Struct.numberless (struct : Struct) : Numberless struct.encode := by
  rw [encode_eq]
  apply numberless_record
  simp [written, isNumberless_some, isNumberless_writtenUnless, texts, Numberless.text,
    numberless_map, numberless_mapping, Field.numberless]

/-- An import has no numbers. -/
theorem Import.numberless (file : Import) : Numberless file.encode := by
  rw [encode_eq]
  apply numberless_record
  simp [written, isNumberless_some, isNumberless_writtenUnless, Numberless.text, numberless_map,
    Struct.numberless]

/-- The settings of a service have no numbers. -/
theorem Server.numberless (server : Server) : Numberless server.encode := by
  rw [encode_eq]
  apply numberless_record
  simp [written, isNumberless_some, texts, Numberless.text, numberless_map]

/-- A route has no numbers. -/
theorem Route.numberless (route : Route) : Numberless route.encode := by
  rw [encode_eq]
  apply numberless_record
  simp [written, isNumberless_some, isNumberless_writtenUnless, texts, Numberless.text,
    numberless_map, numberless_mapping]

/-- A service has no numbers. -/
theorem Service.numberless (service : Service) : Numberless service.encode := by
  rw [encode_eq]
  apply numberless_record
  simp [written, isNumberless_some, Numberless.text, numberless_map, Server.numberless,
    Route.numberless]

/-- A spec has no numbers. -/
theorem numberless (spec : Spec) : Numberless spec.encode := by
  rw [encode_eq]
  apply numberless_record
  simp [written, isNumberless_some, Numberless.text, numberless_map, Metadata.numberless,
    Import.numberless, Struct.numberless, Service.numberless]

/-- What is printed for a spec shows no control characters but line feeds, whatever its texts
hold. -/
theorem isShown_print (spec : Spec) (layout : Json.Layout) :
    (Json.print layout spec.encode).IsShown :=
  spec.numberless.isShown_printAt 0

end Spec

end ApiDescription
