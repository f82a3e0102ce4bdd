import ApiDescription.Token

/-!
# Syntax errors

A syntax error is a cause and the line and column it is reported at. What a
cause says to the reader is decided here once, in `message`.
-/

namespace ApiDescription

/-- Why a text is not a description. -/
inductive SyntaxError.Cause where
  | unterminatedComment
  | unterminatedText
  | unterminatedRawText
  | unknownMarker (name : String)
  | unexpectedCharacter (c : Char)
  | expectedKind (kind : Kind) (found : Token)
  | expectedName (found : Token)
  | expectedType (found : Token)
  | expectedLineEnd (found : Token)
  | unexpectedDeclaration (found : Token)
  | unterminatedProperties
  | unterminatedImports
  | unterminatedTypes
  | unterminatedStruct
  | unterminatedService (name : String)
  | unknownMethod (word : String)
  | missingHandler (method path : String)
  deriving DecidableEq, Repr

/-- A cause at the place where it is reported. -/
structure SyntaxError where
  cause : SyntaxError.Cause
  line : Nat
  column : Nat
  deriving DecidableEq, Repr

namespace SyntaxError

/-- The text of a cause. -/
def Cause.message : Cause → String
  | .unterminatedComment => "Unterminated block comment"
  | .unterminatedText => "Unterminated string literal"
  | .unterminatedRawText => "Unterminated raw string"
  | .unknownMarker name => "Unknown annotation: " ++ name
  | .unexpectedCharacter c => "Unexpected character: " ++ Text.quoted (String.singleton c)
  | .expectedKind kind found => "Expected " ++ kind.label ++ ", got " ++ found.describe
  | .expectedName found => "Expected identifier, got " ++ found.describe
  | .expectedType found => "Expected type, got " ++ found.describe
  | .expectedLineEnd found => "Expected end of line, got " ++ found.describe
  | .unexpectedDeclaration found => "Unexpected " ++ found.describe ++ " at top level"
  | .unterminatedProperties => "Unterminated property block, expected ')'"
  | .unterminatedImports => "Unterminated import group, expected ')'"
  | .unterminatedTypes => "Unterminated type group, expected ')'"
  | .unterminatedStruct => "Unterminated struct, expected '\x7d'"
  | .unterminatedService name =>
    "Unterminated service " ++ Text.quoted name ++ ", expected '\x7d'"
  | .unknownMethod word => "Unknown HTTP method " ++ Text.quoted word
  | .missingHandler method path => "Missing @handler for route " ++ method ++ " " ++ path

/-- The text of a syntax error. -/
def message (error : SyntaxError) : String := error.cause.message

/-- A cause reported at the first character of what it is about. -/
def located (cause : Cause) (place : Location) : SyntaxError := ⟨cause, place.line, place.column⟩

end SyntaxError

end ApiDescription
