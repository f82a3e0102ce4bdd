import ApiDescription.Reading
import ApiDescription.SyntaxError
import ApiDescription.Token.Cursor
import ApiDescription.Token.Lexeme

/-!
# Reading tokens

A scan moves a cursor over a text and answers what it read. A scan that fails
reports the first character of the offending lexeme and leaves the cursor where
reading stopped, so that every state can be inspected.

`tokens` reads one token per round. Gaps before a token are skipped by the round
that reads it.
-/

namespace ApiDescription

/-- An action that reads from a cursor. -/
abbrev Scan := EStateM SyntaxError Cursor

instance : Remaining Cursor := ⟨fun cursor => cursor.rest.length⟩

namespace Scan

/-- Reads the next `count` characters as they stand. -/
def take (count : Nat) : Scan String := fun cursor =>
  .ok (String.ofList (cursor.rest.take count)) (cursor.skip count)

/-- Reads the longest run of characters in a class. -/
def takeWhile (p : Char → Bool) : Scan String := fun cursor =>
  take (Lexeme.countWhile p cursor.rest) cursor

/-- Moves over one character. -/
def advance : Scan Unit := modify Cursor.advance

/-- Moves over the characters that separate tokens. -/
def gap : Scan Unit := modify fun cursor =>
  cursor.skip (Lexeme.countWhile Lexeme.isGap cursor.rest)

/-- Whether the character read last is a colon. What follows it as two slashes
belongs to an address such as `http://host` and is no comment. -/
def afterScheme : Scan Bool := fun cursor => .ok (cursor.last? == some ':') cursor

/-- Reads a comment up to the end of its line. Carriage returns that end the line
are read but are no part of the comment. -/
def lineComment : Scan String := fun cursor =>
  let raw := Lexeme.lineComment cursor.rest
  .ok (String.ofList (Text.dropEndWhile (· = '\r') raw)) (cursor.skip raw.length)

/-- Reads a comment up to its closing mark. -/
def blockComment : Scan String := fun cursor =>
  match Lexeme.commentEnd? (cursor.rest.drop 2) with
  | some count => take (count + 2) cursor
  | none =>
    .error (.located .unterminatedComment cursor.location) (cursor.skip cursor.rest.length)

/-- Reads a quoted text and answers what it stands for. -/
def quotedText : Scan String := fun cursor =>
  let (value, count, left) := Lexeme.quotedBody (cursor.rest.drop 1)
  if left.head? = some '"' then .ok (String.ofList value) (cursor.skip (count + 2))
  else .error (.located .unterminatedText cursor.location) (cursor.skip (count + 1))

/-- Reads a raw text with its backticks. -/
def rawText : Scan String := fun cursor =>
  let body := cursor.rest.drop 1
  let count := Lexeme.countWhile (· ≠ '\x60') body
  if (body.drop count).head? = some '\x60' then take (count + 2) cursor
  else .error (.located .unterminatedRawText cursor.location) (cursor.skip (count + 1))

/-- Reads a path. -/
def path : Scan String := takeWhile Lexeme.inPath

/-- Reads a number. -/
def number : Scan String := takeWhile Lexeme.inNumber

/-- Reads an identifier or a keyword. -/
def identifier : Scan String := takeWhile Lexeme.inIdentifier

/-- Reads a marker, which has to be a known one. -/
def marker : Scan Marker := fun cursor =>
  match identifier cursor.advance with
  | .ok name next =>
    match Marker.ofSpelling? ("@" ++ name) with
    | some found => .ok found next
    | none => .error (.located (.unknownMarker ("@" ++ name)) cursor.location) next
  | .error fault next => .error fault next

/-- The kind of a word. -/
def wordKind (word : String) : Kind :=
  match Keyword.ofSpelling? word with
  | some keyword => .keyword keyword
  | none => .identifier

/-- Reads the kind and the value of the token that begins with the character `c`.
Two slashes begin a comment unless the character before them is a colon. -/
def lexeme (last? : Option Char) (c : Char) (second? : Option Char) :
    Scan (Kind × String) := do
  if c = '\n' then
    advance
    return (.newline, "\\n")
  if c = '/' && second? == some '/' && last? != some ':' then
    return (.comment, ← lineComment)
  if c = '/' && second? == some '*' then
    return (.comment, ← blockComment)
  if c = '/' then
    return (.path, ← path)
  if c = '"' then
    return (.quotedText, ← quotedText)
  if c = '\x60' then
    return (.rawText, ← rawText)
  if Text.isDigit c then
    return (.number, ← number)
  if Lexeme.beginsIdentifier c then
    let word ← identifier
    return (wordKind word, word)
  if c = '@' then
    let found ← marker
    return (.marker found, found.spelling)
  match Mark.ofChar? c with
  | some mark =>
    advance
    return (.mark mark, String.singleton c)
  | none =>
    throw (.located (.unexpectedCharacter c) (← get).location)

/-- Reads the gap before a token and the token, if the text goes on. -/
def token? : Scan (Option Token) := do
  gap
  let start ← get
  match start.rest with
  | [] => return none
  | c :: following =>
    let (kind, value) ← lexeme start.last? c following.head?
    return some ⟨kind, value, start.location, (← get).location.offset⟩

/-- Reads tokens to the end of the text or to the first fault. -/
def tokens (cursor : Cursor) : Series SyntaxError Cursor Token := collect token? cursor

end Scan

/-- The token that stands at the end of the text. -/
def Token.finish (place : Location) : Token := ⟨.endOfText, "", place, place.offset⟩

/-- The tokens of a text, ended by the end of the text. -/
def tokenize (text : List Char) : Except SyntaxError (List Token) :=
  let series := Scan.tokens (.ofText text)
  match series.fault with
  | some fault => .error fault
  | none => .ok (series.items ++ [Token.finish series.state.location])

end ApiDescription
