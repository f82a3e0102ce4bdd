import ApiDescription.Text.Blank
import ApiDescription.Text.Numeral

/-!
# Lexemes

Each kind of token has a rule that says, on the characters still to be read, how
many of them belong to the token and what they stand for. The rules see only
those characters; moving the cursor and locating errors is done elsewhere.
-/

namespace ApiDescription.Lexeme

/-- Characters that separate tokens without being tokens. -/
def isGap (c : Char) : Bool :=
  c = ' ' || c = '\t' || c = '\r' || c = '\x0c' || c = '\ufeff'

/-- Characters that continue a path: anything but blanks and parentheses. -/
def inPath (c : Char) : Bool := !Text.isBlank c && c != '(' && c != ')'

/-- Characters that continue a number, units and dates included. -/
def inNumber (c : Char) : Bool :=
  Text.isLetterOrNumeral c || c = '.' || c = '_' || c = '-'

/-- Characters that continue an identifier. -/
def inIdentifier (c : Char) : Bool := Text.isLetterOrNumeral c || c = '_' || c = '-'

/-- Characters that begin an identifier. -/
def beginsIdentifier (c : Char) : Bool := Text.isLetter c || c = '_'

/-- The number of leading characters in a class. -/
def countWhile (p : Char → Bool) (text : List Char) : Nat := (text.takeWhile p).length

/-- The characters of a line comment: all that precedes the line feed. -/
def lineComment (text : List Char) : List Char := text.takeWhile (· ≠ '\n')

/-- The number of characters up to and including the first `*/`. -/
def commentEnd? : List Char → Option Nat
  | '*' :: '/' :: _ => some 2
  | [] => none
  | _ :: rest => (commentEnd? rest).map (· + 1)

/-- What an escape in a quoted text stands for. An unknown escape stands for itself. -/
def unescape (c : Char) : List Char :=
  if c = 'n' then ['\n']
  else if c = 't' then ['\t']
  else if c = '\\' then ['\\']
  else if c = '"' then ['"']
  else ['\\', c]

/-- The part of a quoted text after its opening quote: what it stands for, how
many characters it takes, and what follows them. It ends before a quote that is
not escaped, before a line feed that is not escaped, or with the text. -/
def quotedBody : List Char → List Char × Nat × List Char
  | [] => ([], 0, [])
  | ['\\'] => ([], 1, [])
  | '\\' :: c :: rest =>
    let (value, count, left) := quotedBody rest
    (unescape c ++ value, count + 2, left)
  | c :: rest =>
    if c = '"' ∨ c = '\n' then ([], 0, c :: rest)
    else
      let (value, count, left) := quotedBody rest
      (c :: value, count + 1, left)

/-- How a character is written between quotes. -/
def escape (c : Char) : List Char :=
  if c = '\\' then ['\\', '\\']
  else if c = '"' then ['\\', '"']
  else if c = '\n' then ['\\', 'n']
  else if c = '\t' then ['\\', 't']
  else [c]

/-- The quoted text that stands for the given characters. -/
def quote (value : List Char) : List Char := '"' :: value.flatMap escape ++ ['"']

/-- A character written between quotes stands for itself. -/
theorem quotedBody_escape_append (c : Char) (rest : List Char) :
    quotedBody (escape c ++ rest) =
      (c :: (quotedBody rest).1, (quotedBody rest).2.1 + (escape c).length,
        (quotedBody rest).2.2) := by
  unfold escape
  split
  · next backslash => subst backslash; simp [quotedBody, unescape]
  split
  · next closing => subst closing; simp [quotedBody, unescape]
  split
  · next feed => subst feed; simp [quotedBody, unescape]
  split
  · next tab => subst tab; simp [quotedBody, unescape]
  · next backslash closing feed tab =>
    have plain : ¬(c = '"' ∨ c = '\n') := by simp [closing, feed]
    cases rest <;> simp [quotedBody, backslash, plain]

/-- Characters written between quotes stand for themselves, whatever follows the closing
quote. -/
theorem quotedBody_escape (value rest : List Char) :
    quotedBody (value.flatMap escape ++ '"' :: rest) =
      (value, (value.flatMap escape).length, '"' :: rest) := by
  induction value with
  | nil => simp [quotedBody]
  | cons c value inductionHypothesis =>
    rw [List.flatMap_cons, List.append_assoc, quotedBody_escape_append, inductionHypothesis,
      List.length_append, Nat.add_comm]

/-- A digit continues a number. -/
theorem inNumber_of_isDigit {c : Char} (digit : Text.isDigit c = true) : inNumber c = true := by
  simp [inNumber, Text.isLetterOrNumeral_of_isDigit digit]

/-- What begins an identifier also continues one. -/
theorem inIdentifier_of_beginsIdentifier {c : Char} (begins : beginsIdentifier c = true) :
    inIdentifier c = true := by
  simp only [beginsIdentifier, Bool.or_eq_true, decide_eq_true_eq] at begins
  rcases begins with letter | underscore
  · simp [inIdentifier, Text.isLetterOrNumeral_of_isLetter letter]
  · simp [inIdentifier, underscore]

end ApiDescription.Lexeme
