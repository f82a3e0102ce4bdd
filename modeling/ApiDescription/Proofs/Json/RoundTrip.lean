import ApiDescription.Proofs.Json.Escaping
import ApiDescription.Proofs.Rounds

/-!
# Reading printed JSON

A value without numbers and without lone surrogates is read back from its printed
form, in every layout. What is printed for a value tells where the value ends, so
that it can stand in front of anything; and it begins neither like a blank nor like
the end of a list or an object, so that it can stand between their brackets.
-/

namespace ApiDescription

namespace Text

/-- A character in front of a text is no surrogate. -/
theorem isTextual_cons (c : Char) (text : Text) :
    isTextual (.char c :: text) = isTextual text := rfl

/-- A character in front of a text is the first of its characters. -/
theorem chars_cons (c : Char) (text : Text) : chars (.char c :: text) = c :: chars text := rfl

/-- Two texts in turn have no lone surrogates if neither has. -/
theorem isTextual_append (first second : Text) :
    isTextual (first ++ second) = (isTextual first && isTextual second) := List.all_append

/-- Many texts in turn have no lone surrogates if none of them has. -/
theorem isTextual_flatMap {α : Type} (values : List α) (part : α → Text) :
    isTextual (values.flatMap part) = values.all fun value => isTextual (part value) :=
  List.all_flatMap

end Text

namespace Json

/-- Values without numbers and lone surrogates whose lists and objects are nested at most
`depth` levels deep. -/
inductive Plain : (depth : Nat) → Json → Prop
  | null {depth : Nat} : Plain depth .null
  | bool {depth : Nat} (value : Bool) : Plain depth (.bool value)
  | text {depth : Nat} {value : Text} (textual : value.isTextual = true) :
      Plain depth (.text value)
  | list {depth : Nat} {items : List Json} (plain : ∀ item ∈ items, Plain depth item) :
      Plain (depth + 1) (.list items)
  | object {depth : Nat} {members : Members}
      (textual : ∀ entry ∈ members, entry.1.isTextual = true)
      (plain : ∀ entry ∈ members, Plain depth entry.2) : Plain (depth + 1) (.object members)

/-- No string and no key in a list of values has a lone surrogate if none in any of them has. -/
theorem areTextual_of_forall {items : List Json}
    (textual : ∀ item ∈ items, item.isTextual = true) : areTextual items = true := by
  induction items with
  | nil => rfl
  | cons item rest inductionHypothesis =>
    rw [List.forall_mem_cons] at textual
    rw [areTextual, textual.1, inductionHypothesis textual.2]
    rfl

/-- No string and no key in a list of members has a lone surrogate if none in any of them has. -/
theorem membersTextual_of_forall {members : Members}
    (keys : ∀ entry ∈ members, entry.1.isTextual = true)
    (values : ∀ entry ∈ members, entry.2.isTextual = true) : membersTextual members = true := by
  induction members with
  | nil => rfl
  | cons entry rest inductionHypothesis =>
    rw [List.forall_mem_cons] at keys values
    rw [membersTextual, keys.1, values.1, inductionHypothesis keys.2 values.2]
    rfl

/-- Plain values have no lone surrogates. -/
theorem Plain.isTextual {depth : Nat} {value : Json} (plain : Plain depth value) :
    value.isTextual = true := by
  induction plain with
  | null | bool => rfl
  | text textual => exact textual
  | list _ inductionHypothesis => exact areTextual_of_forall inductionHypothesis
  | object keys _ inductionHypothesis => exact membersTextual_of_forall keys inductionHypothesis

namespace Reader

variable {α : Type}

/-- The character that is looked for is consumed. -/
theorem accepts_self (c : Char) (rest : List Char) : accepts c (c :: rest) = .ok true rest :=
  if_pos rfl

/-- Another character than the one looked for is left. -/
theorem accepts_of_ne {c next : Char} (rest : List Char) (other : next ≠ c) :
    accepts c (next :: rest) = .ok false (next :: rest) :=
  if_neg other

/-- Blanks are skipped up to what is none. -/
theorem skipBlanks_append {gap : List Char} {c : Char} {rest : List Char}
    (blank : ∀ c ∈ gap, isBlank c = true) (solid : isBlank c = false) :
    skipBlanks (gap ++ c :: rest) = .ok () (c :: rest) := by
  have left : (gap ++ c :: rest).dropWhile isBlank = c :: rest := by
    rw [List.dropWhile_append_of_pos blank, List.dropWhile_cons_of_neg (by simp [solid])]
  exact congrArg (EStateM.Result.ok ()) left

/-- What can stand first in a printed value: no blank, no closing bracket and no byte order
mark. -/
def begins (c : Char) : Bool := !isBlank c && c != ']' && c != '\x7d' && c != '\ufeff'

/-- A text that is read as a value whatever stands behind it, and that begins like a value. -/
structure ReadsAs (reader : Reader α) (value : α) (written : Text) : Prop where
  textual : written.isTextual = true
  opened : ∃ c rest, written.chars = c :: rest ∧ begins c = true
  reads : ∀ more, reader (written.chars ++ more) = .ok value more

variable {reader : Reader α} {value : α} {written : Text}

/-- What stands first in a printed value is none of the characters that are excluded. -/
theorem begins_iff {c : Char} :
    begins c = true ↔ isBlank c = false ∧ c ≠ ']' ∧ c ≠ '\x7d' ∧ c ≠ '\ufeff' := by
  simp [begins, and_assoc]

/-- Blanks in front of what is read as a value are skipped. -/
theorem ReadsAs.skipBlanks (readsAs : ReadsAs reader value written) {gap : Text}
    (blank : ∀ c ∈ gap.chars, isBlank c = true) (more : List Char) :
    Reader.skipBlanks (gap.chars ++ (written.chars ++ more)) =
      .ok () (written.chars ++ more) := by
  obtain ⟨c, rest, chars, first⟩ := readsAs.opened
  rw [chars]
  exact skipBlanks_append blank (begins_iff.mp first).1

/-- What is read as a value is not mistaken for a closing bracket. -/
theorem ReadsAs.accepts_closing (readsAs : ReadsAs reader value written) {closing : Char}
    (isClosing : closing = ']' ∨ closing = '\x7d') (more : List Char) :
    accepts closing (written.chars ++ more) = .ok false (written.chars ++ more) := by
  obtain ⟨c, rest, chars, first⟩ := readsAs.opened
  obtain ⟨-, bracket, brace, -⟩ := begins_iff.mp first
  rw [chars]
  refine accepts_of_ne _ ?_
  rcases isClosing with rfl | rfl
  · exact bracket
  · exact brace

end Reader

/-- Line breaks are blanks. -/
theorem Layout.isBlank_lineBreak (layout : Layout) (level : Nat) :
    ∀ c ∈ (layout.lineBreak level).chars, Reader.isBlank c = true := by
  unfold Layout.lineBreak
  cases layout.indent with
  | none => simp [Text.chars]
  | some width => simp +contextual [Text.chars, CodePoint.char?, Reader.isBlank]

/-- Line breaks have no lone surrogates. -/
theorem Layout.isTextual_lineBreak (layout : Layout) (level : Nat) :
    (layout.lineBreak level).isTextual = true := by
  unfold Layout.lineBreak
  cases layout.indent with
  | none => rfl
  | some width => simp [Text.isTextual, CodePoint.char?]

/-- Parts between brackets, each on a line of its own if the layout breaks lines. -/
def Layout.bracketed (layout : Layout) (level : Nat) (opening closing : Char) :
    List Text → Text
  | [] => [.char opening, .char closing]
  | first :: rest =>
    .char opening :: layout.lineBreak (level + 1) ++ first ++
      rest.flatMap (fun part => .char ',' :: layout.lineBreak (level + 1) ++ part) ++
      layout.lineBreak level ++ [.char closing]

/-- A member of an object. -/
def printMember (layout : Layout) (level : Nat) (entry : Text × Json) : Text :=
  printText layout.asciiOnly entry.1 ++ layout.colon ++ printAt layout level entry.2

/-- Further items of a list are parts behind commas. -/
theorem printItems_eq (layout : Layout) (level : Nat) (items : List Json) :
    printItems layout level items =
      (items.map (printAt layout (level + 1))).flatMap
        fun part => .char ',' :: layout.lineBreak (level + 1) ++ part := by
  induction items with
  | nil => rfl
  | cons item rest inductionHypothesis =>
    rw [printItems, inductionHypothesis]
    rfl

/-- Further members of an object are parts behind commas. -/
theorem printMembers_eq (layout : Layout) (level : Nat) (members : Members) :
    printMembers layout level members =
      (members.map (printMember layout (level + 1))).flatMap
        fun part => .char ',' :: layout.lineBreak (level + 1) ++ part := by
  induction members with
  | nil => rfl
  | cons entry rest inductionHypothesis =>
    rw [printMembers, inductionHypothesis]
    simp [printMember]

/-- A list is printed as its items between brackets. -/
theorem printAt_list (layout : Layout) (level : Nat) (items : List Json) :
    printAt layout level (.list items) =
      layout.bracketed level '[' ']' (items.map (printAt layout (level + 1))) := by
  cases items with
  | nil => rfl
  | cons item rest =>
    rw [printAt, printItems_eq]
    rfl

/-- An object is printed as its members between braces. -/
theorem printAt_object (layout : Layout) (level : Nat) (members : Members) :
    printAt layout level (.object members) =
      layout.bracketed level '\x7b' '\x7d' (members.map (printMember layout (level + 1))) := by
  cases members with
  | nil => rfl
  | cons entry rest =>
    rw [printAt, printMembers_eq]
    simp [printMember, Layout.bracketed]

namespace Reader

variable {α : Type} {item : Reader α} {value : α} {written gap : Text} {closing : Char}

/-- The closing bracket ends a series. -/
theorem later_closing (isClosing : closing = ']' ∨ closing = '\x7d')
    (blank : ∀ c ∈ gap.chars, isBlank c = true) (more : List Char) :
    later? closing item (gap.chars ++ closing :: more) = .ok none more := by
  have solid : isBlank closing = false := by
    rcases isClosing with rfl | rfl <;> rfl
  refine bind_eq_ok_iff.mpr ⟨(), closing :: more, skipBlanks_append blank solid, ?_⟩
  exact bind_eq_ok_iff.mpr ⟨true, more, accepts_self closing more, rfl⟩

/-- A part behind a comma goes on with a series. -/
theorem later_part (isClosing : closing = ']' ∨ closing = '\x7d')
    (blank : ∀ c ∈ gap.chars, isBlank c = true) (readsAs : ReadsAs item value written)
    (more : List Char) :
    later? closing item (',' :: gap.chars ++ (written.chars ++ more)) = .ok (some value) more := by
  have other : ',' ≠ closing := by
    rcases isClosing with rfl | rfl <;> decide
  have comma : skipBlanks (',' :: gap.chars ++ (written.chars ++ more)) =
      .ok () (',' :: gap.chars ++ (written.chars ++ more)) := rfl
  refine bind_eq_ok_iff.mpr ⟨(), _, comma, ?_⟩
  refine bind_eq_ok_iff.mpr ⟨false, _, accepts_of_ne _ other, ?_⟩
  refine bind_eq_ok_iff.mpr ⟨true, _, accepts_self ',' _, ?_⟩
  refine bind_eq_ok_iff.mpr ⟨(), _, readsAs.skipBlanks blank more, ?_⟩
  exact bind_eq_ok_iff.mpr ⟨value, more, readsAs.reads more, rfl⟩

/-- Parts behind commas are read in rounds. -/
theorem rounds_parts (isClosing : closing = ']' ∨ closing = '\x7d')
    (blank : ∀ c ∈ gap.chars, isBlank c = true) {part : α → Text} {values : List α}
    (readsAs : ∀ value ∈ values, ReadsAs item value (part value)) (more : List Char) :
    Rounds (later? closing item)
      ((values.flatMap fun value => ',' :: gap.chars ++ (part value).chars) ++ more)
      values more := by
  induction values with
  | nil => exact .none more
  | cons first rest inductionHypothesis =>
    rw [List.forall_mem_cons] at readsAs
    rw [List.flatMap_cons, List.append_assoc, List.append_assoc]
    exact .more (later_part isClosing blank readsAs.1 _) (inductionHypothesis readsAs.2)

/-- Every part takes its comma at least. -/
theorem length_le_length_parts (values : List α) (part : α → List Char) :
    values.length ≤ (values.flatMap fun value => ',' :: part value).length := by
  induction values with
  | nil => exact Nat.le_refl 0
  | cons first rest inductionHypothesis =>
    rw [List.flatMap_cons, List.length_append, List.length_cons, List.length_cons]
    omega

/-- Parts behind commas are read up to the closing bracket. -/
theorem many_parts (isClosing : closing = ']' ∨ closing = '\x7d')
    (blank : ∀ c ∈ gap.chars, isBlank c = true) {lastGap : Text}
    (lastBlank : ∀ c ∈ lastGap.chars, isBlank c = true) {part : α → Text} {values : List α}
    (readsAs : ∀ value ∈ values, ReadsAs item value (part value)) (more : List Char) :
    many (later? closing item)
      ((values.flatMap fun value => ',' :: gap.chars ++ (part value).chars) ++
        (lastGap.chars ++ closing :: more)) = .ok values more := by
  refine many_of_rounds (rounds_parts isClosing blank readsAs _)
    (later_closing isClosing lastBlank more) ?_
  have parts := length_le_length_parts values fun value => gap.chars ++ (part value).chars
  exact Nat.le_trans parts (by simp [remaining])

/-- Parts between brackets are read behind the opening one. -/
theorem series_bracketed (layout : Layout) (level : Nat)
    (isClosing : closing = ']' ∨ closing = '\x7d') (opening : Char) {part : α → Text}
    {values : List α} (readsAs : ∀ value ∈ values, ReadsAs item value (part value)) :
    ∃ inner, (layout.bracketed level opening closing (values.map part)).chars =
        opening :: inner ∧
      ∀ more, series closing item (inner ++ more) = .ok values more := by
  cases values with
  | nil =>
    have solid : isBlank closing = false := by
      rcases isClosing with rfl | rfl <;> rfl
    refine ⟨[closing], rfl, fun more => ?_⟩
    have atClosing : skipBlanks (closing :: more) = .ok () (closing :: more) :=
      skipBlanks_append (List.forall_mem_nil _) solid
    refine bind_eq_ok_iff.mpr ⟨(), closing :: more, atClosing, ?_⟩
    exact bind_eq_ok_iff.mpr ⟨true, more, accepts_self closing more, rfl⟩
  | cons first rest =>
    rw [List.forall_mem_cons] at readsAs
    have blank := layout.isBlank_lineBreak (level + 1)
    have lastBlank := layout.isBlank_lineBreak level
    refine ⟨(layout.lineBreak (level + 1)).chars ++ ((part first).chars ++
      ((rest.flatMap fun value => ',' :: (layout.lineBreak (level + 1)).chars ++
        (part value).chars) ++ ((layout.lineBreak level).chars ++ [closing]))), ?_, fun more => ?_⟩
    · simp [Layout.bracketed, Text.chars, CodePoint.char?, List.filterMap_flatMap,
        List.flatMap_map]
    · simp only [List.append_assoc, List.singleton_append]
      refine bind_eq_ok_iff.mpr ⟨(), _, readsAs.1.skipBlanks blank _, ?_⟩
      refine bind_eq_ok_iff.mpr ⟨false, _, readsAs.1.accepts_closing isClosing _, ?_⟩
      refine bind_eq_ok_iff.mpr ⟨first, _, readsAs.1.reads _, ?_⟩
      exact bind_eq_ok_iff.mpr
        ⟨rest, more, many_parts isClosing blank lastBlank readsAs.2 more, rfl⟩

/-- Parts without lone surrogates have none between brackets. -/
theorem isTextual_bracketed (layout : Layout) (level : Nat) (opening closing : Char)
    {parts : List Text} (textual : ∀ part ∈ parts, part.isTextual = true) :
    (layout.bracketed level opening closing parts).isTextual = true := by
  cases parts with
  | nil => rfl
  | cons first rest =>
    have breaks := layout.isTextual_lineBreak
    rw [List.forall_mem_cons] at textual
    have parts : rest.all (Text.isTextual ·) = true := List.all_eq_true.mpr textual.2
    simp only [Layout.bracketed, Text.isTextual_append, Text.isTextual_cons,
      Text.isTextual_flatMap, List.cons_append, breaks, textual.1, Bool.true_and, Bool.and_true,
      parts]
    rfl

variable {rule : DigitRule} {nested : Reader Json}

/-- A printed text is read as a text. -/
theorem readsAs_text {text : Text} (textual : text.isTextual = true) (asciiOnly : Bool) :
    ReadsAs (valueOver rule nested) (.text text) (printText asciiOnly text) := by
  rw [printText_eq textual]
  refine ⟨Text.isTextual_ofChars _, ⟨'"', _, Text.chars_ofChars _, rfl⟩, fun more => ?_⟩
  have read : string (text.chars.flatMap (escapeChar asciiOnly) ++ '"' :: more) =
      .ok text more := by
    rw [string_escaped, Text.ofChars_chars textual]
  rw [Text.chars_ofChars, List.cons_append, List.cons_append, List.append_assoc]
  refine bind_eq_ok_iff.mpr ⟨true, _, accepts_self '"' _, ?_⟩
  exact bind_eq_ok_iff.mpr ⟨text, more, read, rfl⟩

/-- A colon and the blanks behind it. -/
theorem colon_eq (layout : Layout) :
    ∃ gap : Text, layout.colon = .char ':' :: gap ∧ gap.isTextual = true ∧
      ∀ c ∈ gap.chars, isBlank c = true := by
  unfold Layout.colon
  by_cases single : layout.indent.isNone = true
  · exact ⟨[], if_pos single, rfl, List.forall_mem_nil _⟩
  · exact ⟨[.char ' '], if_neg single, rfl, List.forall_mem_singleton.mpr rfl⟩

/-- A printed member is read as its key and its value. -/
theorem readsAs_member {layout : Layout} {level : Nat} {entry : Text × Json}
    (textual : entry.1.isTextual = true)
    (readsAs : ReadsAs nested entry.2 (printAt layout level entry.2)) :
    ReadsAs (member nested) entry (printMember layout level entry) := by
  obtain ⟨gap, colon, gapTextual, blank⟩ := colon_eq layout
  obtain ⟨key, value⟩ := entry
  rw [printMember, colon, printText_eq textual]
  refine ⟨?_, ?_, fun more => ?_⟩
  · simp only [Text.isTextual_append, Text.isTextual_ofChars, Text.isTextual_cons, gapTextual,
      readsAs.textual, Bool.and_true]
  · exact ⟨'"', _, by rw [Text.chars_append, Text.chars_append, Text.chars_ofChars]; rfl, rfl⟩
  · have read : string (key.chars.flatMap (escapeChar layout.asciiOnly) ++ '"' ::
        (':' :: (gap.chars ++ ((printAt layout level value).chars ++ more)))) =
        .ok key (':' :: (gap.chars ++ ((printAt layout level value).chars ++ more))) := by
      rw [string_escaped, Text.ofChars_chars textual]
    have spelled :
        (Text.ofChars ('"' :: key.chars.flatMap (escapeChar layout.asciiOnly) ++ ['"']) ++
          .char ':' :: gap ++ printAt layout level value : Text).chars ++ more =
        '"' :: (key.chars.flatMap (escapeChar layout.asciiOnly) ++ '"' ::
          (':' :: (gap.chars ++ ((printAt layout level value).chars ++ more)))) := by
      simp only [Text.chars_append, Text.chars_ofChars, Text.chars_cons, List.cons_append,
        List.append_assoc, List.nil_append]
    rw [spelled]
    refine bind_eq_ok_iff.mpr ⟨true, _, accepts_self '"' _, ?_⟩
    refine bind_eq_ok_iff.mpr ⟨key, _, read, ?_⟩
    refine bind_eq_ok_iff.mpr ⟨(), _, rfl, ?_⟩
    refine bind_eq_ok_iff.mpr ⟨true, _, accepts_self ':' _, ?_⟩
    refine bind_eq_ok_iff.mpr ⟨(), _, readsAs.skipBlanks blank more, ?_⟩
    exact bind_eq_ok_iff.mpr ⟨value, more, readsAs.reads more, rfl⟩

/-- A printed list is read as the list of its items. -/
theorem readsAs_list {layout : Layout} {level : Nat} {items : List Json}
    (readsAs : ∀ item ∈ items, ReadsAs nested item (printAt layout (level + 1) item)) :
    ReadsAs (valueOver rule nested) (.list items) (printAt layout level (.list items)) := by
  obtain ⟨inner, chars, read⟩ := series_bracketed layout level (.inl rfl) '[' readsAs
  rw [printAt_list]
  refine ⟨isTextual_bracketed layout level _ _ ?_, ⟨'[', inner, chars, rfl⟩, fun more => ?_⟩
  · exact List.forall_mem_map.mpr fun item isItem => (readsAs item isItem).textual
  · rw [chars, List.cons_append]
    refine bind_eq_ok_iff.mpr ⟨false, _, accepts_of_ne _ (by decide), ?_⟩
    refine bind_eq_ok_iff.mpr ⟨false, _, accepts_of_ne _ (by decide), ?_⟩
    refine bind_eq_ok_iff.mpr ⟨true, _, accepts_self '[' _, ?_⟩
    exact bind_eq_ok_iff.mpr ⟨items, more, read more, rfl⟩

/-- A printed object is read as the object of its members. -/
theorem readsAs_object {layout : Layout} {level : Nat} {members : Members}
    (textual : ∀ entry ∈ members, entry.1.isTextual = true)
    (readsAs : ∀ entry ∈ members, ReadsAs nested entry.2 (printAt layout (level + 1) entry.2)) :
    ReadsAs (valueOver rule nested) (.object members)
      (printAt layout level (.object members)) := by
  have entries : ∀ entry ∈ members,
      ReadsAs (member nested) entry (printMember layout (level + 1) entry) :=
    fun entry isMember => readsAs_member (textual entry isMember) (readsAs entry isMember)
  obtain ⟨inner, chars, read⟩ := series_bracketed layout level (.inr rfl) '\x7b' entries
  rw [printAt_object]
  refine ⟨isTextual_bracketed layout level _ _ ?_, ⟨'\x7b', inner, chars, rfl⟩, fun more => ?_⟩
  · exact List.forall_mem_map.mpr fun entry isMember => (entries entry isMember).textual
  · rw [chars, List.cons_append]
    refine bind_eq_ok_iff.mpr ⟨false, _, accepts_of_ne _ (by decide), ?_⟩
    refine bind_eq_ok_iff.mpr ⟨true, _, accepts_self '\x7b' _, ?_⟩
    exact bind_eq_ok_iff.mpr ⟨members, more, read more, rfl⟩

/-- A value at any depth is read over some reader of nested values. -/
theorem exists_value_eq (rule : DigitRule) (depth : Nat) :
    ∃ nested, Reader.value rule depth = valueOver rule nested := by
  cases depth with
  | zero => exact ⟨_, rfl⟩
  | succ depth => exact ⟨_, rfl⟩

/-- What is printed for a plain value is read as that value. -/
theorem readsAs_printAt {depth : Nat} {printed : Json} (plain : Plain depth printed)
    (rule : DigitRule) (layout : Layout) (level : Nat) :
    ReadsAs (Reader.value rule depth) printed (printAt layout level printed) := by
  induction plain generalizing level with
  | @null depth =>
    obtain ⟨nested, reader⟩ := exists_value_eq rule depth
    rw [reader]
    exact ⟨rfl, ⟨'n', _, rfl, rfl⟩, fun _ => rfl⟩
  | @bool depth value =>
    obtain ⟨nested, reader⟩ := exists_value_eq rule depth
    rw [reader]
    cases value with
    | false => exact ⟨rfl, ⟨'f', _, rfl, rfl⟩, fun _ => rfl⟩
    | true => exact ⟨rfl, ⟨'t', _, rfl, rfl⟩, fun _ => rfl⟩
  | @text depth value textual =>
    obtain ⟨nested, reader⟩ := exists_value_eq rule depth
    rw [reader, printAt]
    exact readsAs_text textual layout.asciiOnly
  | list _ inductionHypothesis =>
    exact readsAs_list fun item isItem => inductionHypothesis item isItem (level + 1)
  | object textual _ inductionHypothesis =>
    exact readsAs_object textual fun entry isMember =>
      inductionHypothesis entry isMember (level + 1)

end Reader

/-- A plain value that is not nested too deep is read back from its printed form, in every
layout; and the printed form has no lone surrogates. -/
theorem readStrict?_print {value : Json} (plain : Plain strictDepth value) (layout : Layout) :
    (print layout value).isTextual = true ∧
      readStrict? (print layout value).chars = some value := by
  have printed := Reader.readsAs_printAt plain .wholeParts layout 0
  refine ⟨printed.textual, ?_⟩
  obtain ⟨c, rest, chars, first⟩ := printed.opened
  have read : Reader.document .wholeParts strictDepth (print layout value).chars =
      .ok value [] := by
    obtain ⟨solid, -, -, noMark⟩ := Reader.begins_iff.mp first
    have reads := printed.reads []
    rw [List.append_nil] at reads
    have opening : Reader.skipBlanks (print layout value).chars =
        .ok () (print layout value).chars := by
      rw [print, chars]
      exact Reader.skipBlanks_append (List.forall_mem_nil _) solid
    have unmarked : ¬ (print layout value).chars.head? = some '\ufeff' := by
      rw [print, chars]
      exact fun same => noMark (Option.some.inj same)
    refine bind_eq_ok_iff.mpr ⟨_, _, rfl, ?_⟩
    rw [if_neg unmarked]
    refine bind_eq_ok_iff.mpr ⟨(), _, opening, ?_⟩
    refine bind_eq_ok_iff.mpr ⟨value, _, reads, ?_⟩
    exact bind_eq_ok_iff.mpr ⟨(), [], rfl, rfl⟩
  rw [readStrict?, readWithin, read]
  exact if_pos plain.isTextual

end Json

end ApiDescription
