import ApiDescription.Token.Stream

/-!
# The elements of the grammar

A grammar rule reads from a token stream and answers what it read, or fails with
a syntax error. A rule that fails leaves the stream where it stopped. Errors are
reported at the current token, unless a rule says otherwise.
-/

namespace ApiDescription

/-- A grammar rule. -/
abbrev Rule := EStateM SyntaxError Stream

namespace Rule

/-- The current token, which is not consumed. -/
def current : Rule Token := fun stream => .ok stream.current stream

/-- Consumes the current token. The end of the text is never consumed. -/
def advance : Rule Token := fun stream => .ok stream.current stream.next

/-- Whether the current token is of a given kind. -/
def sees (kind : Kind) : Rule Bool := fun stream =>
  .ok (stream.current.kind == kind) stream

/-- Whether the current token is of one of several kinds. -/
def seesAny (kinds : List Kind) : Rule Bool := fun stream =>
  .ok (kinds.contains stream.current.kind) stream

/-- Fails with a cause at the current token. -/
def fail {α : Type} (cause : Token → SyntaxError.Cause) : Rule α := fun stream =>
  .error (.located (cause stream.current) stream.current.start) stream

/-- Fails with a cause at an earlier token. -/
def failAt {α : Type} (token : Token) (cause : SyntaxError.Cause) : Rule α := fun stream =>
  .error (.located cause token.start) stream

/-- Consumes a token that has to be of the given kind. -/
def expect (kind : Kind) : Rule Token := do
  if ← sees kind then advance else fail (.expectedKind kind)

/-- Consumes a name. Keywords are names where a name is expected. -/
def expectName : Rule Token := do
  if (← current).isName then advance else fail .expectedName

/-- Consumes the current token if it is of the given kind, and says whether it did. -/
def accepts (kind : Kind) : Rule Bool := do
  if ← sees kind then
    let _ ← advance
    return true
  else return false

end Rule

end ApiDescription
