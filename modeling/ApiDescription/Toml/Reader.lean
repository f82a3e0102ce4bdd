import ApiDescription.Decimal.Numeral
import ApiDescription.Reading
import ApiDescription.Token.Location
import ApiDescription.Toml.Table

/-!
# Reading TOML

A document is read line by line, and each header and entry is carried out as soon as it
has been read. A text is rejected as a whole. The reason is what comes first in the text:
a break of the notation or of the rules for tables, or an integer with too many digits.
-/

namespace ApiDescription.Toml

/-- Why a document cannot be read: it is no TOML, for a reason that is met where so many
characters are left; or an integer has too many digits. -/
inductive Fault where
  | malformed (reason : String) (left : Nat)
  | tooManyDigits
  deriving DecidableEq, Repr

/-- An action that reads TOML from a text. -/
abbrev Reader := TextReader Fault

/-- An action that reads TOML from a text and builds something from it. -/
abbrev Builder (δ : Type) := EStateM Fault (List Char × δ)

instance {δ : Type} : Remaining (List Char × δ) := ⟨fun state => state.1.length⟩

namespace Reader

/-- Reads without building anything. -/
def reading {δ α : Type} (reader : Reader α) : Builder δ α := fun state =>
  match reader state.1 with
  | .ok value rest => .ok value (rest, state.2)
  | .error fault rest => .error fault (rest, state.2)

instance {δ : Type} : MonadLift Reader (Builder δ) := ⟨reading⟩

/-- Builds something without reading. What breaks a rule is reported where reading stands. -/
def building {δ : Type} (change : δ → Except String δ) : Builder δ Unit := fun state =>
  match change state.2 with
  | .ok changed => .ok () (state.1, changed)
  | .error reason => .error (.malformed reason state.1.length) state

/-- Fails because the text is no TOML. -/
def fail {α : Type} (reason : String) : Reader α := fun text =>
  .error (.malformed reason text.length) text

/-- Consumes a word if it comes next, and says whether it did. -/
def accepts (word : String) : Reader Bool := TextReader.accepts word

/-- Consumes a word that has to come next. -/
def expect (word reason : String) : Reader Unit := do
  if !(← accepts word) then fail reason

/-- Blanks inside a line. -/
def isBlank (c : Char) : Bool := c = ' ' || c = '\t'

/-- Blanks and line feeds. -/
def isBlankOrFeed (c : Char) : Bool := isBlank c || c = '\n'

/-- Control characters, which may not be written but for tabs. -/
def isControl (c : Char) : Bool := (c.toNat < 32 && c ≠ '\t') || c.toNat = 127

/-- Control characters that may not be written in texts of several lines. -/
def isControlInLines (c : Char) : Bool := isControl c && c ≠ '\n'

/-- Skips blanks inside a line. -/
def skipBlanks : Reader Unit := TextReader.skipWhile isBlank

/-- Reads what stands in front of the rest of the text. It may not hold some characters. -/
def readUpTo (forbidden : Char → Bool) (body rest : List Char) : Reader String := fun _ =>
  match body.dropWhile (!forbidden ·) with
  | [] => .ok (String.ofList body) rest
  | c :: behind =>
    fail ("Found invalid character " ++ Text.quoted [.char c]) (c :: behind ++ rest)

/-- Skips a comment up to the end of its line. -/
def skipComment : Reader Unit := do
  if ← accepts "#" then
    let text ← get
    let _ ← readUpTo isControl (text.takeWhile (· ≠ '\n')) (text.dropWhile (· ≠ '\n'))

/-- Skips blanks and line feeds and a comment, or answers `none` if there are none. -/
def space? : Reader (Option Unit) := fun text =>
  match (TextReader.skipWhile isBlankOrFeed *> skipComment : Reader Unit) text with
  | .ok _ rest => if rest.length < text.length then .ok (some ()) rest else .ok none rest
  | .error fault rest => .error fault rest

/-- Skips blanks, line feeds and comments. -/
def skipSpace : Reader Unit := many space? *> pure ()

/-- A character named by its number in hexadecimal digits. -/
def numericEscape (width : Nat) : Reader (List Char) := fun text =>
  let digits := text.take width
  match (if digits.length = width then Text.hexNumber? digits else none) with
  | some number =>
    if number < 0xd800 ∨ (0xe000 ≤ number ∧ number < 0x110000) then
      .ok [Char.ofNat number] (text.drop width)
    else fail "Escaped character is not a Unicode scalar value" (text.drop width)
  | none => fail "Invalid hex value" text

/-- Fails because a backslash does not begin an escape. -/
def failEscape {α : Type} : Reader α := fail "Unescaped '\\' in a string"

/-- A line end behind a backslash: blanks up to it, and all blanks and line feeds
behind it, are left out. -/
def continuation : Reader (List Char) := do
  skipBlanks
  match ← get with
  | [] => return []
  | c :: _ =>
    if c ≠ '\n' then failEscape
    TextReader.skipWhile isBlankOrFeed
    return []

/-- The escapes of one letter. -/
def escapes : List (Char × Char) :=
  [('b', '\x08'), ('t', '\t'), ('n', '\n'), ('f', '\x0c'), ('r', '\r'), ('"', '"'),
   ('\\', '\\')]

/-- What an escape stands for, behind its backslash. -/
def escape (manyLines : Bool) : Reader (List Char) := fun text =>
  match text with
  | [] => failEscape text
  | c :: rest =>
    if manyLines && isBlankOrFeed c then continuation text
    else if c = 'u' then numericEscape 4 rest
    else if c = 'U' then numericEscape 8 rest
    else
      match List.lookup c escapes with
      | some value => .ok [value] rest
      | none => failEscape rest

/-- One piece of a text between double quotes, or `none` behind its end. -/
def piece? (manyLines : Bool) : Reader (Option (List Char)) := do
  let closing := if manyLines then "\"\"\"" else "\""
  if ← accepts closing then return none
  match ← get with
  | [] => fail "Unterminated string"
  | c :: rest =>
    if (if manyLines then isControlInLines c else isControl c) then
      fail ("Illegal character " ++ Text.quoted [.char c])
    set rest
    if c = '\\' then return some (← escape manyLines)
    return some [c]

/-- A text behind its opening double quote. -/
def quotedLine : Reader String := do
  return String.ofList (← many (piece? false)).flatten

/-- The characters in front of the first occurrence of a word. -/
def before? (word : List Char) : List Char → Option (List Char)
  | [] => none
  | c :: rest =>
    if word.isPrefixOf (c :: rest) then some [] else (before? word rest).map (c :: ·)

/-- A literal text behind its opening quotes, up to the first closing ones. -/
def literal (quotes : String) (forbidden : Char → Bool) : Reader String := fun text =>
  match before? quotes.toList text with
  | none => fail ("Expected " ++ Text.quoted quotes) []
  | some body =>
    (readUpTo forbidden body (text.drop body.length) <* accepts quotes) text

/-- A text behind its opening single quote. -/
def literalLine : Reader String := literal "'" isControl

/-- Up to two quotes that stand right behind a text of several lines belong to it. -/
def lateQuotes (quote : String) : Reader String := do
  if !(← accepts quote) then return ""
  if !(← accepts quote) then return quote
  return quote ++ quote

/-- A text of several lines behind its opening quotes. -/
def quotedLines : Reader String := do
  let _ ← accepts "\n"
  let body := String.ofList (← many (piece? true)).flatten
  return body ++ (← lateQuotes "\"")

/-- A literal text of several lines behind its opening quotes. -/
def literalLines : Reader String := do
  let _ ← accepts "\n"
  let body ← literal "'''" isControlInLines
  return body ++ (← lateQuotes "'")

/-- Characters of a key without quotes. -/
def inBareKey (c : Char) : Bool := c.isAlphanum || c = '-' || c = '_'

/-- One part of a dotted key. -/
def keyPart : Reader String := do
  if ← accepts "'" then literalLine
  else if ← accepts "\"" then quotedLine
  else
    let word ← TextReader.takeWhile inBareKey
    if word.isEmpty then fail "Invalid initial character for a key part"
    return String.ofList word

/-- One more part of a dotted key, or `none` if no dot comes next. -/
def laterPart? : Reader (Option String) := do
  if !(← accepts ".") then return none
  skipBlanks
  let part ← keyPart
  skipBlanks
  return some part

/-- A dotted key and the blanks behind it. -/
def key : Reader Key := do
  let first ← keyPart
  skipBlanks
  return first :: (← many laterPart?)

/-- More digits behind a first one; single underscores may separate them. -/
def moreDigits (p : Char → Bool) : List Char → List Char × List Char
  | '_' :: c :: rest =>
    if p c then
      let (digits, left) := moreDigits p rest
      (c :: digits, left)
    else ([], '_' :: c :: rest)
  | c :: rest =>
    if p c then
      let (digits, left) := moreDigits p rest
      (c :: digits, left)
    else ([], c :: rest)
  | [] => ([], [])

/-- A run of digits, if one comes next. -/
def digits? (p : Char → Bool) : List Char → Option (List Char × List Char)
  | c :: rest =>
    if p c then
      let (digits, left) := moreDigits p rest
      some (c :: digits, left)
    else none
  | [] => none

/-- The value of digits in a base. -/
def natOfDigits (base : Nat) (digits : List Char) : Nat :=
  digits.foldl (fun value digit => base * value + (Text.hexValue? digit).getD 0) 0

/-- The bases that a number can name, with their letters. -/
def bases : List (Char × Nat) := [('x', 16), ('o', 8), ('b', 2)]

/-- An integer in a base that it names. -/
def basedInteger? : List Char → Option (Toml × List Char)
  | '0' :: mark :: rest => do
    let base ← List.lookup mark bases
    let inBase := fun c => (Text.hexValue? c).any (· < base)
    let (digits, left) ← digits? inBase rest
    return (.integer (natOfDigits base digits), left)
  | _ => none

/-- The whole part of a decimal number: a zero, or digits that do not begin with one. -/
def wholePart? : List Char → Option (List Char × List Char)
  | '0' :: rest => some (['0'], rest)
  | other => digits? Char.isDigit other

/-- A fraction behind its point, if one comes next. -/
def fractionPart (text : List Char) : List Char × List Char :=
  match text with
  | '.' :: rest => (digits? Char.isDigit rest).getD ([], text)
  | _ => ([], text)

/-- A sign, if one comes next: whether it is a minus. -/
def signPart : List Char → Bool × List Char
  | '-' :: rest => (true, rest)
  | '+' :: rest => (false, rest)
  | other => (false, other)

/-- An exponent, if one comes next. -/
def exponentPart (text : List Char) : Option Int × List Char :=
  match text with
  | mark :: rest =>
    if mark = 'e' ∨ mark = 'E' then
      let (negative, body) := signPart rest
      match digits? Char.isDigit body with
      | some (digits, left) =>
        let size : Int := Numeral.natOfDigits digits
        (some (if negative then -size else size), left)
      | none => (none, text)
    else (none, text)
  | [] => (none, text)

/-- A decimal integer, or a number with a fraction or an exponent. -/
def numeral? (text : List Char) : Option (Numeral × List Char) := do
  let (negative, body) := signPart text
  let (whole, rest) ← wholePart? body
  let (fraction, rest) := fractionPart rest
  let (exponent, rest) := exponentPart rest
  return (⟨negative, whole, fraction, exponent⟩, rest)

/-- The value that a numeral stands for. -/
def valueOf (numeral : Numeral) : Toml :=
  if numeral.isInteger then .integer numeral.integer
  else .float (.number (Binary64.ofDecimal numeral.decimal))

/-- Exactly so many digits. -/
def fixedDigits? (count : Nat) (text : List Char) : Option (Nat × List Char) :=
  let digits := text.take count
  if digits.length = count && digits.all Char.isDigit then
    some (natOfDigits 10 digits, text.drop count)
  else none

/-- A character that has to come next. -/
def afterChar? (p : Char → Bool) : List Char → Option (List Char)
  | c :: rest => if p c then some rest else none
  | [] => none

/-- A number of two digits below a bound. -/
def twoDigits? (bound : Nat) (text : List Char) : Option (Nat × List Char) := do
  let (value, rest) ← fixedDigits? 2 text
  if value < bound then some (value, rest) else none

/-- A fraction of a second in microseconds; further digits are dropped. -/
def microseconds (text : List Char) : Nat × List Char :=
  match text with
  | '.' :: rest =>
    let digits := rest.takeWhile Char.isDigit
    if digits.isEmpty then (0, text)
    else
      let kept := digits.take 6
      (natOfDigits 10 kept * Nat.pow 10 (6 - kept.length), rest.dropWhile Char.isDigit)
  | _ => (0, text)

/-- A time of day. -/
def time? (text : List Char) : Option (Time × List Char) := do
  let (hour, rest) ← twoDigits? 24 text
  let (minute, rest) ← twoDigits? 60 (← afterChar? (· = ':') rest)
  let (second, rest) ← twoDigits? 60 (← afterChar? (· = ':') rest)
  let (microsecond, rest) := microseconds rest
  return (⟨hour, minute, second, microsecond⟩, rest)

/-- A date by its form: the month and the day may be too large for the calendar, but
not for any month. -/
def date? (text : List Char) : Option (Date × List Char) := do
  let (year, rest) ← fixedDigits? 4 text
  let (month, rest) ← twoDigits? 13 (← afterChar? (· = '-') rest)
  let (day, rest) ← twoDigits? 32 (← afterChar? (· = '-') rest)
  if month = 0 || day = 0 then none
  return (⟨year, month, day⟩, rest)

/-- A zone, if one comes next: the distance from universal time in minutes. -/
def zone (text : List Char) : Option Int × List Char :=
  match text with
  | 'Z' :: rest | 'z' :: rest => (some 0, rest)
  | sign :: rest =>
    let distance? := do
      let (hour, rest) ← twoDigits? 24 rest
      let (minute, rest) ← twoDigits? 60 (← afterChar? (· = ':') rest)
      return ((60 * hour + minute : Nat), rest)
    match distance? with
    | some (minutes, left) =>
      if sign = '+' then (some minutes, left)
      else if sign = '-' then (some (-minutes), left)
      else (none, text)
    | none => (none, text)
  | [] => (none, text)

/-- A date, and a time behind it if one comes next. -/
def dateOrMoment? (text : List Char) : Option (Moment × List Char) := do
  let (date, rest) ← date? text
  let time := do
    time? (← afterChar? (fun c => c = 'T' || c = 't' || c = ' ') rest)
  match time with
  | none => return (.date date, rest)
  | some (clock, rest) =>
    let (minutes, rest) := zone rest
    return (.dateTime date clock minutes, rest)

/-- Whether the day of a moment exists. -/
def dayExists : Moment → Bool
  | .date value | .dateTime value _ _ => value.exists
  | .time _ => true

/-- The words for truth values, infinity, and the number that is none. -/
def words : List (String × Toml) :=
  let infinity := fun negative => Toml.float (.number (.infinite negative))
  [("true", .bool true), ("false", .bool false), ("inf", infinity false),
   ("+inf", infinity false), ("-inf", infinity true), ("nan", .float .notANumber),
   ("+nan", .float .notANumber), ("-nan", .float .notANumber)]

/-- A word that comes next. -/
def word? (text : List Char) : Option (Toml × List Char) :=
  words.findSome? fun (word, value) =>
    if word.toList.isPrefixOf text then some (value, text.drop word.length) else none

/-- A date, a time, a number or a word. A date by its form has to exist. -/
def scalar : Reader Toml := fun text =>
  match dateOrMoment? text with
  | some (found, rest) =>
    if dayExists found then .ok (.moment found) rest else fail "Invalid date or datetime" text
  | none =>
    let other :=
      ((time? text).map fun (clock, rest) => (Toml.moment (.time clock), rest)) <|>
        basedInteger? text <|> word? text
    match other, numeral? text with
    | some (value, rest), _ => .ok value rest
    | none, some (numeral, rest) =>
      if numeral.isConvertible then .ok (valueOf numeral) rest else .error .tooManyDigits text
    | none, none => fail "Invalid value" text

/-- One more item of an array, or `none` behind its closing bracket. A comma may stand
behind the last item. -/
def laterItem? (nested : Reader Toml) : Reader (Option Toml) := do
  skipSpace
  if ← accepts "]" then return none
  expect "," "Unclosed array"
  skipSpace
  if ← accepts "]" then return none
  return some (← nested)

/-- The items of an array behind its opening bracket. -/
def array (nested : Reader Toml) : Reader (List Toml) := do
  skipSpace
  if ← accepts "]" then return []
  let first ← nested
  return first :: (← many (laterItem? nested))

/-- A key with its value. -/
def pair (nested : Reader Toml) : Reader (Key × Toml) := do
  let parts ← key
  expect "=" "Expected '=' after a key in a key/value pair"
  skipBlanks
  return (parts, ← nested)

/-- An entry of an inline table. -/
def inlineEntry (nested : Reader Toml) : Builder InlineDraft Unit := do
  let (parts, value) ← pair nested
  building (·.addEntry parts value)

/-- One more entry of an inline table, or `none` behind its closing brace. -/
def nextEntry (nested : Reader Toml) : Builder InlineDraft (Option Unit) := do
  skipBlanks
  if ← accepts "\x7d" then return none
  expect "," "Unclosed inline table"
  skipBlanks
  some <$> inlineEntry nested

/-- An inline table behind its opening brace. -/
def inlineTable (nested : Reader Toml) : Reader Toml := do
  skipBlanks
  if ← accepts "\x7d" then return .table []
  fun text =>
    match (inlineEntry nested *> many (nextEntry nested)) (text, {}) with
    | .ok _ (rest, draft) => .ok (.table draft.entries) rest
    | .error fault (rest, _) => .error fault rest

/-- A value, whose nested values are read by `nested`. -/
def valueOver (nested : Reader Toml) : Reader Toml := do
  if ← accepts "\"\"\"" then return .text (← quotedLines)
  if ← accepts "\"" then return .text (← quotedLine)
  if ← accepts "'''" then return .text (← literalLines)
  if ← accepts "'" then return .text (← literalLine)
  if ← accepts "[" then return .list (← array nested)
  if ← accepts "\x7b" then return ← inlineTable nested
  scalar

/-- A value nested at most `depth` levels deep. -/
def value : (depth : Nat) → Reader Toml
  | 0 => valueOver (fail "Invalid value")
  | depth + 1 => valueOver (value depth)

/-- Whether a character begins an entry. -/
def beginsEntry (c : Char) : Bool := inBareKey c || c = '"' || c = '\''

/-- A header or an entry, which is carried out. -/
def statement : Builder Draft Unit := do
  if ← accepts "[[" then
    skipBlanks
    let parts ← key
    building (·.openItem parts)
    expect "]]" "Expected ']]' at the end of an array declaration"
  else if ← accepts "[" then
    skipBlanks
    let parts ← key
    building (·.openTable parts)
    expect "]" "Expected ']' at the end of a table declaration"
  else
    let ahead := (← get).1
    if !ahead.head?.any beginsEntry then (fail "Invalid statement" : Reader Unit)
    let (parts, read) ← pair (value ahead.length)
    building (·.addEntry parts read)

/-- One line: a statement or nothing, perhaps with a comment, up to and including its
line feed. Answers `none` at the end of the text. -/
def line? : Builder Draft (Option Unit) := do
  skipBlanks
  match (← get).1 with
  | [] => return none
  | c :: _ =>
    if !(c = '\n' || c = '#') then statement
    skipBlanks
    skipComment
    if !(← get).1.isEmpty then
      expect "\n" "Expected newline or end of document after a statement"
    return some ()

end Reader

/-- The entries of a document. -/
def read (text : List Char) : Except Fault Entries :=
  match many Reader.line? (text, ({} : Draft)) with
  | .ok _ (_, draft) => .ok draft.entries
  | .error fault _ => .error fault

/-- A reason, and the place in a text where so many characters are left. -/
def located (text : List Char) (reason : String) (left : Nat) : String :=
  let place := Location.start.after (text.take (text.length - left))
  reason ++ " (at " ++
    (if left = 0 then "end of document"
      else "line " ++ toString place.line ++ ", column " ++ toString place.column) ++ ")"

end ApiDescription.Toml
