import ApiDescription.Document
import ApiDescription.Grammar.Line
import ApiDescription.Text.Blank

/-!
# Properties

A property block holds one `key: value` per line between parentheses. A value is
the rest of its line as the source has it; a value that is a single quoted text
stands for the text it quotes. Without a source at hand, the values of the tokens
are joined by single spaces.
-/

namespace ApiDescription

/-- Whether a token ends a property's value. -/
def Token.endsValue (token : Token) : Bool :=
  match token.kind with
  | .newline | .comment | .mark .rightParen | .endOfText => true
  | _ => false

/-- The text between two offsets. -/
def sliceOf (source : List Char) (start stop : Nat) : List Char :=
  (source.drop start).take (stop - start)

/-- What the tokens of a property's value stand for. -/
def valueOfTokens (source : List Char) : List Token → Text
  | [] => []
  | first :: rest =>
    if rest.isEmpty && first.kind == .quotedText then first.text
    else if source.isEmpty then (Text.ofString " ").intercalate ((first :: rest).map Token.text)
    else
      let stop := (rest.getLastD first).stop
      Text.ofChars (Text.trimChars (sliceOf source first.start.offset stop))

namespace Rule

/-- The rest of a `key: value` line. -/
def propertyValue (source : List Char) : Rule Text := fun stream =>
  let tokens := stream.ahead.takeWhile fun token => !token.endsValue
  .ok (valueOfTokens source tokens) (stream.skip tokens.length)

/-- One property, or `none` behind the closing parenthesis. -/
def property? (source : List Char) : Rule (Option (Text × Text)) := do
  skipSpacing
  if ← accepts (.mark .rightParen) then return none
  if ← sees .endOfText then fail fun _ => .unterminatedProperties
  let key ← expectName
  let _ ← expect (.mark .colon)
  return some (key.text, ← propertyValue source)

/-- A property block. A repeated key keeps its first place and its last value. -/
def propertyBlock (source : List Char) : Rule Properties := do
  let _ ← expect (.mark .leftParen)
  return OrderedMap.ofList (← many (property? source))

end Rule

end ApiDescription
