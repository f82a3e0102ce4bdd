import ApiDescription.Failure
import ApiDescription.Decimal.Numeral
import ApiDescription.Json
import ApiDescription.Reading
import ApiDescription.Token.Location

/-!
# Reading JSON

The reader accepts standard JSON and the literals `NaN`, `Infinity` and
`-Infinity`. A fault has a cause and a place, which is the offending character, or
for a string that does not end its opening quote. Values may be nested to a given
depth; a text cannot nest values deeper than it is long. The digits of numbers are
limited, for integers alone or, strictly, for whatever stands before a point.
-/

namespace ApiDescription.Json

/-- Why a text is not JSON. -/
inductive Fault.Cause where
  | byteOrderMark
  | expectedValue
  | expectedKey
  | expectedColon
  | expectedComma
  | unterminatedText
  | controlCharacter
  | badEscape
  | badNumericEscape
  | extraData
  | nestedTooDeep
  | tooManyDigits
  deriving DecidableEq, Repr

/-- A cause, and the number of characters from its place to the end of the text. -/
structure Fault where
  cause : Fault.Cause
  remaining : Nat
  deriving DecidableEq, Repr

/-- The text of a cause. -/
def Fault.Cause.message : Fault.Cause → String
  | .byteOrderMark => "Unexpected UTF-8 BOM (decode using utf-8-sig)"
  | .expectedValue => "Expecting value"
  | .expectedKey => "Expecting property name enclosed in double quotes"
  | .expectedColon => "Expecting ':' delimiter"
  | .expectedComma => "Expecting ',' delimiter"
  | .unterminatedText => "Unterminated string starting at"
  | .controlCharacter => "Invalid control character at"
  | .badEscape => "Invalid \\escape"
  | .badNumericEscape => "Invalid \\uXXXX escape"
  | .extraData => "Extra data"
  | .nestedTooDeep => "Nested too deep"
  | .tooManyDigits => "Too many digits"

/-- The text of a fault. -/
def Fault.message (fault : Fault) : String := fault.cause.message

/-- The place of a fault in its text. -/
def Fault.place (fault : Fault) (text : List Char) : Location :=
  Location.start.after (text.take (text.length - fault.remaining))

/-- A fault as a failure. Too many digits are a breakdown, and no reason to call a text
no JSON. -/
def Fault.failure (fault : Fault) : Failure Fault :=
  if fault.cause = .tooManyDigits then .broken .integerTooLong else .reported fault

/-- The numbers whose digits are limited. -/
inductive DigitRule where
  /-- Integers. -/
  | integers
  /-- All numbers, in what stands before the point, a minus sign included. -/
  | wholeParts
  deriving DecidableEq, Repr

/-- Whether a numeral keeps to the limit. -/
def DigitRule.allows (rule : DigitRule) (numeral : Numeral) : Bool :=
  match rule with
  | .integers => numeral.isConvertible
  | .wholeParts => numeral.whole.length + numeral.negative.toNat ≤ Numeral.maxDigits

/-- An action that reads JSON from a text. -/
abbrev Reader := TextReader Fault

namespace Reader

/-- Fails at the current character. -/
def fail {α : Type} (cause : Fault.Cause) : Reader α := fun text =>
  .error ⟨cause, text.length⟩ text

/-- Fails at an earlier place. -/
def failAt {α : Type} (remaining : Nat) (cause : Fault.Cause) : Reader α := fun text =>
  .error ⟨cause, remaining⟩ text

/-- Characters between values. -/
def isBlank (c : Char) : Bool := c = ' ' || c = '\t' || c = '\n' || c = '\r'

/-- Skips the characters between values. -/
def skipBlanks : Reader Unit := TextReader.skipWhile isBlank

/-- Consumes a character if it comes next, and says whether it did. -/
def accepts (c : Char) : Reader Bool := TextReader.acceptsChar c

/-- What a one-letter escape stands for. -/
def shortEscape? (c : Char) : Option Char :=
  match c with
  | '"' => some '"'
  | '\\' => some '\\'
  | '/' => some '/'
  | 'b' => some '\x08'
  | 'f' => some '\x0c'
  | 'n' => some '\n'
  | 'r' => some '\r'
  | 't' => some '\t'
  | _ => none

/-- Whether a number is the first half of a surrogate pair. -/
def isHighSurrogate (unit : Nat) : Bool := 0xd800 ≤ unit && unit < 0xdc00

/-- Whether a number is the second half of a surrogate pair. -/
def isLowSurrogate (unit : Nat) : Bool := 0xdc00 ≤ unit && unit < 0xe000

/-- The code point of a number below 0x10000. -/
def pointOfUnit (unit : Nat) : CodePoint :=
  if isHighSurrogate unit || isLowSurrogate unit then .surrogate unit
  else .char (Char.ofNat unit)

/-- The character of a surrogate pair. -/
def pointOfPair (high low : Nat) : CodePoint :=
  .char (Char.ofNat (0x10000 + (high - 0xd800) * 0x400 + (low - 0xdc00)))

/-- Replaces every surrogate pair by its character. -/
def joinPairs : Text → Text
  | .surrogate high :: .surrogate low :: rest =>
    if isHighSurrogate high && isLowSurrogate low then pointOfPair high low :: joinPairs rest
    else .surrogate high :: joinPairs (.surrogate low :: rest)
  | point :: rest => point :: joinPairs rest
  | [] => []

/-- The code points of a string behind its opening quote, and the text behind its
closing quote. At least one character has to follow a numeric escape. A fault comes
with the text from its place on, or with none if the string does not end. -/
def points : List Char → Except (Fault.Cause × Option (List Char)) (Text × List Char)
  | [] | ['\\'] => .error (.unterminatedText, none)
  | '"' :: rest => .ok ([], rest)
  | '\\' :: 'u' :: first :: second :: third :: fourth :: later :: rest =>
    match Text.hexNumber? [first, second, third, fourth] with
    | some unit => (points (later :: rest)).map fun (read, left) => (pointOfUnit unit :: read, left)
    | none =>
      .error (.badNumericEscape, some ('u' :: first :: second :: third :: fourth :: later :: rest))
  | '\\' :: c :: rest =>
    match shortEscape? c with
    | some value => (points rest).map fun (read, left) => (.char value :: read, left)
    | none =>
      if c = 'u' then .error (.badNumericEscape, some (c :: rest))
      else .error (.badEscape, some ('\\' :: c :: rest))
  | c :: rest =>
    if c.toNat < 32 then .error (.controlCharacter, some (c :: rest))
    else (points rest).map fun (read, left) => (.char c :: read, left)

/-- Reads a string behind its opening quote. -/
def string : Reader Text := fun text =>
  match points text with
  | .ok (read, rest) => .ok (joinPairs read) rest
  | .error (cause, some place) => failAt place.length cause text
  | .error (cause, none) => failAt (text.length + 1) cause text

/-- The digits of a fraction, with its point, if a digit follows the point. -/
def fractionOf (text : List Char) : List Char × List Char :=
  match text with
  | '.' :: rest =>
    let digits := rest.takeWhile Char.isDigit
    if digits.isEmpty then ([], text) else (digits, rest.dropWhile Char.isDigit)
  | _ => ([], text)

/-- The value of an exponent part, if one with at least one digit comes next. -/
def exponentOf (text : List Char) : Option Int × List Char :=
  match text with
  | mark :: rest =>
    if mark = 'e' ∨ mark = 'E' then
      let negative := rest.head? = some '-'
      let body := if negative ∨ rest.head? = some '+' then rest.drop 1 else rest
      let digits := body.takeWhile Char.isDigit
      if digits.isEmpty then (none, text)
      else
        let size : Int := Numeral.natOfDigits digits
        (some (if negative then -size else size), body.dropWhile Char.isDigit)
    else (none, text)
  | [] => (none, text)

/-- Reads a number whose sign has been read: a zero or a digit other than zero with
more digits, then a fraction and an exponent if they are complete. -/
def unsignedNumeral? (negative : Bool) (text : List Char) : Option (Numeral × List Char) :=
  let whole := if text.head? = some '0' then ['0'] else text.takeWhile Char.isDigit
  if whole.isEmpty then none
  else
    let (fraction, rest) := fractionOf (text.drop whole.length)
    let (exponent, rest) := exponentOf rest
    some (⟨negative, whole, fraction, exponent⟩, rest)

/-- Reads a number. -/
def numeral? (text : List Char) : Option (Numeral × List Char) :=
  if text.head? = some '-' then unsignedNumeral? true (text.drop 1)
  else unsignedNumeral? false text

/-- The number that a numeral stands for. -/
def numberOf (numeral : Numeral) : Number :=
  if numeral.isInteger then .integer numeral.integer else .decimal numeral.decimal

/-- Consumes a fixed word if it comes next. -/
def afterWord? (word : String) (text : List Char) : Option (List Char) :=
  if word.toList.isPrefixOf text then some (text.drop word.length) else none

/-- The literals that are words. -/
def words : List (String × Json) :=
  [("null", .null), ("true", .bool true), ("false", .bool false),
   ("NaN", .number .notANumber), ("Infinity", .number (.infinity false)),
   ("-Infinity", .number (.infinity true))]

/-- Reads a word or a number. -/
def scalar (rule : DigitRule) : Reader Json := fun text =>
  match words.findSome? fun (word, value) => (afterWord? word text).map (value, ·) with
  | some (value, rest) => .ok value rest
  | none =>
    match numeral? text with
    | some (numeral, rest) =>
      if rule.allows numeral then .ok (.number (numberOf numeral)) rest
      else fail .tooManyDigits text
    | none => fail .expectedValue text

/-- One more item of a bracketed series, or `none` behind its closing bracket. -/
def later? {α : Type} (closing : Char) (item : Reader α) : Reader (Option α) := do
  skipBlanks
  if ← accepts closing then return none
  if !(← accepts ',') then fail .expectedComma
  skipBlanks
  return some (← item)

/-- The items of a bracketed series behind its opening bracket, with its closing
bracket. -/
def series {α : Type} (closing : Char) (item : Reader α) : Reader (List α) := do
  skipBlanks
  if ← accepts closing then return []
  let first ← item
  return first :: (← many (later? closing item))

/-- One member of an object, whose value is read by `value`. -/
def member (value : Reader Json) : Reader (Text × Json) := do
  if !(← accepts '"') then fail .expectedKey
  let key ← string
  skipBlanks
  if !(← accepts ':') then fail .expectedColon
  skipBlanks
  return (key, ← value)

/-- A value, whose nested values are read by `nested`. -/
def valueOver (rule : DigitRule) (nested : Reader Json) : Reader Json := do
  if ← accepts '"' then return .text (← string)
  if ← accepts '\x7b' then return .object (← series '\x7d' (member nested))
  if ← accepts '[' then return .list (← series ']' nested)
  scalar rule

/-- A value nested at most `depth` levels deep. -/
def value (rule : DigitRule) : (depth : Nat) → Reader Json
  | 0 => valueOver rule (fail .nestedTooDeep)
  | depth + 1 => valueOver rule (value rule depth)

/-- A whole text: one value with blanks around it. -/
def document (rule : DigitRule) (depth : Nat) : Reader Json := do
  if (← get).head? = some '\ufeff' then fail .byteOrderMark
  skipBlanks
  let read ← value rule depth
  skipBlanks
  if !(← get).isEmpty then fail .extraData
  return read

end Reader

/-- Reads a text nested at most `depth` levels deep. -/
def readWithin (rule : DigitRule) (depth : Nat) (text : List Char) : Except Fault Json :=
  match Reader.document rule depth text with
  | .ok read _ => .ok read
  | .error fault _ => .error fault

/-- Reads a text. Every level of nesting takes a character, so the length of the
text bounds the depth. -/
def read (text : List Char) : Except (Failure Fault) Json :=
  (readWithin .integers text.length text).mapError Fault.failure

/-- The nesting a strict text may have. -/
def strictDepth : Nat := 200

/-- Reads a text that may hold no lone surrogates and is not nested too deep. -/
def readStrict? (text : List Char) : Option Json :=
  match readWithin .wholeParts strictDepth text with
  | .ok read => if read.isTextual then some read else none
  | .error _ => none

end ApiDescription.Json
