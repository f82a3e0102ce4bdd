/-!
# Texts

A JSON string may name a surrogate that has no partner, and what is read from one
is kept as it is. A text is therefore a list of code points, each a character or a
lone surrogate. Source files hold characters only; a string becomes a text by a
coercion.

A class of characters beyond ASCII is kept as a list of closed ranges of code points.
Escapes in quoted texts and in data formats name a character by the hexadecimal digits
of its code point, padded to a fixed width.
-/

namespace ApiDescription

/-- A character, or a surrogate without its partner. -/
inductive CodePoint where
  | char (c : Char)
  | surrogate (number : Nat)
  deriving DecidableEq, Repr, Inhabited

/-- A list of code points. -/
abbrev Text := List CodePoint

namespace CodePoint

/-- The character a code point stands for, if it is not a lone surrogate. -/
def char? : CodePoint → Option Char
  | .char c => some c
  | .surrogate _ => none

/-- A code point without a surrogate: in the place of one stand three replacement
characters, one for each byte it would take. -/
def replaced : CodePoint → List CodePoint
  | .char c => [.char c]
  | .surrogate _ => List.replicate 3 (.char '\ufffd')

/-- Whether a code point is a character of a class. -/
def satisfies (p : Char → Bool) : CodePoint → Bool
  | .char c => p c
  | .surrogate _ => false

end CodePoint

namespace Text

/-- The text of characters. -/
def ofChars (chars : List Char) : Text := chars.map .char

/-- The text of a string. -/
def ofString (string : String) : Text := ofChars string.toList

instance : Coe String Text := ⟨ofString⟩

/-- The characters of a text, without its lone surrogates. -/
def chars (text : Text) : List Char := text.filterMap CodePoint.char?

/-- Whether a text has no lone surrogates. -/
def isTextual (text : Text) : Bool := text.all fun point => point.char?.isSome

/-- The string of a text without lone surrogates. -/
def toString? (text : Text) : Option String :=
  if text.isTextual then some (String.ofList text.chars) else none

/-- A text with replacement characters for its lone surrogates. -/
def replaceSurrogates (text : Text) : Text := text.flatMap CodePoint.replaced

@[simp] theorem chars_append (first second : Text) :
    chars (first ++ second) = chars first ++ chars second := List.filterMap_append

@[simp] theorem chars_ofChars (letters : List Char) : chars (ofChars letters) = letters := by
  induction letters with
  | nil => rfl
  | cons c rest inductionHypothesis =>
    simpa [chars, ofChars, CodePoint.char?] using inductionHypothesis

@[simp] theorem isTextual_ofChars (letters : List Char) : isTextual (ofChars letters) = true := by
  simp [isTextual, ofChars, CodePoint.char?]

/-- A text without lone surrogates is the text of its characters. -/
theorem ofChars_chars {text : Text} (textual : isTextual text = true) :
    ofChars (chars text) = text := by
  induction text with
  | nil => rfl
  | cons point rest inductionHypothesis =>
    cases point with
    | char c =>
      have later : isTextual rest = true := by simpa [isTextual, CodePoint.char?] using textual
      simpa [chars, ofChars, CodePoint.char?] using inductionHypothesis later
    | surrogate unit => simp [isTextual, CodePoint.char?] at textual

/-- A text without lone surrogates has nothing to replace. -/
theorem replaceSurrogates_eq_self {text : Text} (textual : isTextual text = true) :
    replaceSurrogates text = text := by
  induction text with
  | nil => rfl
  | cons point rest inductionHypothesis =>
    cases point with
    | char c =>
      have later : isTextual rest = true := by simpa [isTextual, CodePoint.char?] using textual
      simpa [replaceSurrogates, CodePoint.replaced] using inductionHypothesis later
    | surrogate unit => simp [isTextual, CodePoint.char?] at textual

/-- A string is recovered from its text. -/
theorem toString?_ofString (string : String) : toString? (ofString string) = some string := by
  simp [toString?, ofString, String.ofList_toList]

/-- Whether a code point lies in one of the closed ranges. -/
def inRanges (ranges : List (Nat × Nat)) (point : Nat) : Bool :=
  ranges.any fun range => range.1 ≤ point && point ≤ range.2

/-- The hexadecimal digit of a value below sixteen, in lower case. -/
def hexDigit (value : Nat) : Char :=
  if value < 10 then Char.ofNat ('0'.toNat + value) else Char.ofNat ('a'.toNat + (value - 10))

/-- The lowest `width` hexadecimal digits of a number, most significant first. -/
def hexDigits : Nat → Nat → List Char
  | 0, _ => []
  | width + 1, value => hexDigits width (value / 16) ++ [hexDigit (value % 16)]

/-- The value of a hexadecimal digit of either case. -/
def hexValue? (c : Char) : Option Nat :=
  if '0' ≤ c ∧ c ≤ '9' then some (c.toNat - '0'.toNat)
  else if 'a' ≤ c ∧ c ≤ 'f' then some (c.toNat - 'a'.toNat + 10)
  else if 'A' ≤ c ∧ c ≤ 'F' then some (c.toNat - 'A'.toNat + 10)
  else none

/-- The number written by a sequence of hexadecimal digits, if all of them are. -/
def hexNumber? (digits : List Char) : Option Nat :=
  digits.foldlM (fun value digit => (hexValue? digit).map (16 * value + ·)) 0

end Text

end ApiDescription
