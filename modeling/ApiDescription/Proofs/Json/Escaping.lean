import ApiDescription.Json.Printer
import ApiDescription.Json.Reader
import Mathlib.Algebra.Group.Nat.Defs

/-!
# Escaped strings

Reading undoes escaping, whether or not characters beyond ASCII are escaped. A
character beyond the basic plane comes back as a surrogate pair, and the pairs are
joined at the end; no other escape names a surrogate, so nothing else is joined.
-/

namespace ApiDescription

namespace Text

/-- A hexadecimal digit has the value it was written for. -/
theorem hexValue?_hexDigit {value : Nat} (small : value < 16) :
    hexValue? (hexDigit value) = some value := by
  have all : ∀ value < 16, hexValue? (hexDigit value) = some value := by decide
  exact all value small

/-- Hexadecimal digits are read as the part of the number that they have room for. -/
theorem hexNumber?_hexDigits (width value : Nat) :
    hexNumber? (hexDigits width value) = some (value % 16 ^ width) := by
  induction width generalizing value with
  | zero => simp [hexDigits, hexNumber?, Nat.mod_one]
  | succ width inductionHypothesis =>
    have digit := hexValue?_hexDigit (Nat.mod_lt value (by decide : 0 < 16))
    have whole : value % 16 ^ (width + 1) = 16 * (value / 16 % 16 ^ width) + value % 16 := by
      rw [Nat.pow_succ', Nat.mod_mul, Nat.add_comm]
    unfold hexNumber? at inductionHypothesis ⊢
    rw [hexDigits, List.foldlM_append, inductionHypothesis, whole]
    simp [digit]

end Text

namespace Json

variable {asciiOnly : Bool}

/-- The first half of the surrogate pair of a character. -/
def highHalf (c : Char) : Nat := 0xd800 + (c.toNat - 0x10000) / 0x400

/-- The second half of the surrogate pair of a character. -/
def lowHalf (c : Char) : Nat := 0xdc00 + (c.toNat - 0x10000) % 0x400

/-- The code points that the escape of a character names: its surrogate pair if it is escaped
and lies beyond the basic plane. -/
def unitsOf (asciiOnly : Bool) (c : Char) : Text :=
  if asciiOnly && 0x10000 ≤ c.toNat then [.surrogate (highHalf c), .surrogate (lowHalf c)]
  else [.char c]

/-- A character is in one of the two ranges around the surrogates. -/
theorem toNat_valid (c : Char) : c.toNat < 0xd800 ∨ 0xdfff < c.toNat ∧ c.toNat < 0x110000 :=
  c.valid

/-- The halves of a character beyond the basic plane fit into an escape. -/
theorem halves_small (c : Char) : highHalf c < 0x10000 ∧ lowHalf c < 0x10000 := by
  have valid := toNat_valid c
  unfold highHalf lowHalf
  omega

/-- A character beyond the basic plane is written by its halves. -/
theorem escapeWide_of_wide {c : Char} (wide : 0x10000 ≤ c.toNat) :
    escapeWide c.toNat = escapeUnit (highHalf c) ++ escapeUnit (lowHalf c) := by
  rw [escapeWide, if_neg (Nat.not_lt.mpr wide), highHalf, lowHalf]

namespace Reader

/-- A numeric escape is read as the code point of its number. -/
theorem points_escapeUnit {unit : Nat} {more : List Char} (small : unit < 0x10000)
    (nonempty : more ≠ []) :
    points (escapeUnit unit ++ more) =
      (points more).map fun (read, left) => (pointOfUnit unit :: read, left) := by
  obtain ⟨later, rest, rfl⟩ := List.exists_cons_of_ne_nil nonempty
  have number : Text.hexNumber? (Text.hexDigits 4 unit) = some unit := by
    have room : unit % 16 ^ 4 = unit := Nat.mod_eq_of_lt small
    rw [Text.hexNumber?_hexDigits, room]
  obtain ⟨first, second, third, fourth, digits⟩ :
      ∃ first second third fourth, Text.hexDigits 4 unit = [first, second, third, fourth] :=
    ⟨_, _, _, _, rfl⟩
  rw [digits] at number
  rw [escapeUnit, digits]
  simp only [List.cons_append, List.nil_append, points, number]

/-- A character of the basic plane is the code point of its number. -/
theorem pointOfUnit_toNat (c : Char) : pointOfUnit c.toNat = .char c := by
  have valid := toNat_valid c
  have notHalf : (isHighSurrogate c.toNat || isLowSurrogate c.toNat) = false := by
    simp [isHighSurrogate, isLowSurrogate]
    omega
  rw [pointOfUnit, notHalf, Char.ofNat_toNat]
  rfl

/-- The halves of a character beyond the basic plane are a surrogate pair. -/
theorem isSurrogate_halves {c : Char} (wide : 0x10000 ≤ c.toNat) :
    isHighSurrogate (highHalf c) = true ∧ isLowSurrogate (lowHalf c) = true := by
  have valid := toNat_valid c
  unfold isHighSurrogate isLowSurrogate highHalf lowHalf
  rw [Bool.and_eq_true, Bool.and_eq_true, decide_eq_true_iff, decide_eq_true_iff,
    decide_eq_true_iff, decide_eq_true_iff]
  omega

/-- The halves of a character beyond the basic plane stand for the character. -/
theorem pointOfPair_halves {c : Char} (wide : 0x10000 ≤ c.toNat) :
    pointOfPair (highHalf c) (lowHalf c) = .char c := by
  have number : 0x10000 + (highHalf c - 0xd800) * 0x400 + (lowHalf c - 0xdc00) = c.toNat := by
    unfold highHalf lowHalf
    omega
  rw [pointOfPair, number, Char.ofNat_toNat]

/-- The escapes of a character beyond ASCII are read as the code points they name. -/
theorem points_escapeWide {c : Char} {more : List Char} (nonempty : more ≠ []) :
    points (escapeWide c.toNat ++ more) =
      (points more).map fun (read, left) => (unitsOf true c ++ read, left) := by
  by_cases wide : 0x10000 ≤ c.toNat
  · obtain ⟨isHigh, isLow⟩ := isSurrogate_halves wide
    obtain ⟨highSmall, lowSmall⟩ := halves_small c
    have units : unitsOf true c = [.surrogate (highHalf c), .surrogate (lowHalf c)] :=
      if_pos (by simpa using wide)
    have behind : escapeUnit (lowHalf c) ++ more ≠ [] := by simp [escapeUnit]
    rw [escapeWide_of_wide wide, List.append_assoc, points_escapeUnit highSmall behind,
      points_escapeUnit lowSmall nonempty, units]
    simp only [pointOfUnit, isHigh, isLow, Bool.true_or, Bool.or_true, if_true]
    cases points more <;> rfl
  · have units : unitsOf true c = [.char c] := if_neg (by simpa using wide)
    rw [escapeWide, if_pos (Nat.not_le.mp wide),
      points_escapeUnit (Nat.not_le.mp wide) nonempty, pointOfUnit_toNat, units]
    rfl

/-- A character behind a backslash is read as what it stands for. -/
theorem points_short {c value : Char} {more : List Char}
    (short : shortEscape? c = some value) :
    points ('\\' :: c :: more) =
      (points more).map fun (read, left) => (.char value :: read, left) := by
  have notNumeric : c ≠ 'u' := by
    rintro rfl
    exact nomatch short
  rw [points, short]
  intro _ _ _ _ _ _ same
  exact absurd same notNumeric

/-- A character without an escape is read as it is. -/
theorem points_verbatim {c : Char} {more : List Char} (notQuote : c ≠ '"')
    (notBackslash : c ≠ '\\') (noControl : ¬ c.toNat < 32) :
    points (c :: more) = (points more).map fun (read, left) => (.char c :: read, left) := by
  rw [points, if_neg noControl] <;> simp_all

/-- A character is escaped by a letter, by its number if it is a control character, by its
number or its halves if it is beyond ASCII and only ASCII may be written, or not at all. -/
theorem escapeChar_cases (asciiOnly : Bool) (c : Char) :
    (∃ letter, shortEscape? letter = some c ∧ escapeChar asciiOnly c = ['\\', letter]) ∨
      (c.toNat < 32 ∧ escapeChar asciiOnly c = escapeUnit c.toNat) ∨
      (asciiOnly = true ∧ escapeChar asciiOnly c = escapeWide c.toNat) ∨
      (c ≠ '"' ∧ c ≠ '\\' ∧ ¬ c.toNat < 32 ∧ (asciiOnly && 126 < c.toNat) = false ∧
        escapeChar asciiOnly c = [c]) := by
  by_cases quote : c = '"'
  · exact .inl ⟨'"', by rw [quote]; rfl, if_pos quote⟩
  by_cases backslash : c = '\\'
  · exact .inl ⟨'\\', by rw [backslash]; rfl, by rw [backslash]; rfl⟩
  by_cases feed : c = '\n'
  · exact .inl ⟨'n', by rw [feed]; rfl, by rw [feed]; rfl⟩
  by_cases carriage : c = '\r'
  · exact .inl ⟨'r', by rw [carriage]; rfl, by rw [carriage]; rfl⟩
  by_cases tab : c = '\t'
  · exact .inl ⟨'t', by rw [tab]; rfl, by rw [tab]; rfl⟩
  by_cases backspace : c = '\x08'
  · exact .inl ⟨'b', by rw [backspace]; rfl, by rw [backspace]; rfl⟩
  by_cases formFeed : c = '\x0c'
  · exact .inl ⟨'f', by rw [formFeed]; rfl, by rw [formFeed]; rfl⟩
  right
  rw [escapeChar, if_neg quote, if_neg backslash, if_neg feed, if_neg carriage, if_neg tab,
    if_neg backspace, if_neg formFeed]
  by_cases control : c.toNat < 32
  · exact .inl ⟨control, if_pos control⟩
  rw [if_neg control]
  by_cases escaped : (asciiOnly && 126 < c.toNat) = true
  · exact .inr (.inl ⟨(Bool.and_eq_true_iff.mp escaped).1, if_pos escaped⟩)
  · exact .inr (.inr ⟨quote, backslash, control, Bool.eq_false_iff.mpr escaped, if_neg escaped⟩)

/-- A character that is not escaped as a pair stands for itself. -/
theorem unitsOf_eq_char {c : Char} (narrow : (asciiOnly && 0x10000 ≤ c.toNat) = false) :
    unitsOf asciiOnly c = [.char c] :=
  if_neg (Bool.eq_false_iff.mp narrow)

/-- The escape of a character is read as the code points it names. -/
theorem points_escapeChar {c : Char} {more : List Char} (nonempty : more ≠ []) :
    points (escapeChar asciiOnly c ++ more) =
      (points more).map fun (read, left) => (unitsOf asciiOnly c ++ read, left) := by
  rcases escapeChar_cases asciiOnly c with ⟨letter, short, written⟩ | ⟨control, written⟩ |
    ⟨rfl, written⟩ | ⟨quote, backslash, noControl, kept, written⟩
  · have narrow : c.toNat < 0x10000 := by
      unfold shortEscape? at short
      split at short <;> cases short <;> decide
    have units : unitsOf asciiOnly c = [.char c] :=
      unitsOf_eq_char (by simp [Nat.not_le.mpr narrow])
    rw [written, List.cons_append, List.singleton_append, points_short short, units]
    rfl
  · have narrow : c.toNat < 0x10000 := by omega
    have units : unitsOf asciiOnly c = [.char c] :=
      unitsOf_eq_char (by simp [Nat.not_le.mpr narrow])
    rw [written, points_escapeUnit narrow nonempty, pointOfUnit_toNat, units]
    rfl
  · rw [written, points_escapeWide nonempty]
  · have units : unitsOf asciiOnly c = [.char c] := by
      refine unitsOf_eq_char ?_
      simp only [Bool.and_eq_false_iff, decide_eq_false_iff_not] at kept ⊢
      exact kept.imp_right fun small => by omega
    rw [written, List.singleton_append, points_verbatim quote backslash noControl, units]
    rfl

/-- An escaped string is read up to its closing quote. -/
theorem points_escaped (letters more : List Char) :
    points (letters.flatMap (escapeChar asciiOnly) ++ '"' :: more) =
      .ok (letters.flatMap (unitsOf asciiOnly), more) := by
  induction letters with
  | nil => rfl
  | cons c rest inductionHypothesis =>
    rw [List.flatMap_cons, List.append_assoc, points_escapeChar (by simp), inductionHypothesis]
    rfl

/-- The halves of a character are joined. -/
theorem joinPairs_unitsOf (c : Char) (rest : Text) :
    joinPairs (unitsOf asciiOnly c ++ rest) = .char c :: joinPairs rest := by
  unfold unitsOf
  by_cases wide : (asciiOnly && 0x10000 ≤ c.toNat) = true
  · have beyond : 0x10000 ≤ c.toNat := of_decide_eq_true (Bool.and_eq_true_iff.mp wide).2
    obtain ⟨isHigh, isLow⟩ := isSurrogate_halves beyond
    rw [if_pos wide]
    simp [joinPairs, isHigh, isLow, pointOfPair_halves beyond]
  · rw [if_neg wide, List.singleton_append, joinPairs]
    exact fun _ _ _ same => nomatch same

/-- Joining the halves of all characters gives the characters back. -/
theorem joinPairs_units (letters : List Char) :
    joinPairs (letters.flatMap (unitsOf asciiOnly)) = Text.ofChars letters := by
  induction letters with
  | nil => rfl
  | cons c rest inductionHypothesis =>
    rw [List.flatMap_cons, joinPairs_unitsOf, inductionHypothesis]
    rfl

/-- An escaped string is read as its characters. -/
theorem string_escaped (letters more : List Char) :
    string (letters.flatMap (escapeChar asciiOnly) ++ '"' :: more) =
      .ok (Text.ofChars letters) more := by
  rw [string, points_escaped]
  simp only [joinPairs_units]

end Reader

/-- The characters of a printed text are its escaped characters between quotes. -/
theorem printText_eq {text : Text} (textual : text.isTextual = true) :
    printText asciiOnly text =
      Text.ofChars ('"' :: text.chars.flatMap (escapeChar asciiOnly) ++ ['"']) := by
  have points (letters : List Char) :
      (Text.ofChars letters).flatMap (escapePoint asciiOnly) =
        Text.ofChars (letters.flatMap (escapeChar asciiOnly)) := by
    simp only [Text.ofChars, List.flatMap_map, List.map_flatMap, escapePoint]
  have spelled := points text.chars
  rw [Text.ofChars_chars textual] at spelled
  rw [printText, spelled]
  simp [Text.ofChars]

end Json

end ApiDescription
