import ApiDescription.Document
import ApiDescription.Grammar.Basic

/-!
# Type expressions

`*T`, `[]T` and `[4]T`, `map[K]V`, `interface` with empty braces, and plain or
qualified names. Every nested type stands behind a token of the outer one and on the
same line, so types cannot be nested deeper than the line has tokens.
-/

namespace ApiDescription.Rule

/-- A plain or qualified name, whose first word is the given one. -/
def qualifiedName (first : Text) : Rule Text := do
  if ← accepts (.mark .dot) then
    return first ++ Text.ofString "." ++ (← expect .identifier).text
  else return first

/-- A type expression nested at most `depth` levels deep. -/
def typeWithin : (depth : Nat) → Rule TypeExpr
  | 0 => fail .expectedType
  | depth + 1 => do
    match (← current).kind with
    | .mark .star =>
      let _ ← advance
      return .pointerTo (← typeWithin depth)
    | .mark .leftBracket =>
      let _ ← advance
      let size ← if ← sees .number then Token.text <$> advance else pure []
      let _ ← expect (.mark .rightBracket)
      return .arrayOf size (← typeWithin depth)
    | .keyword .map =>
      let _ ← advance
      let _ ← expect (.mark .leftBracket)
      let key ← typeWithin depth
      let _ ← expect (.mark .rightBracket)
      return .mapOf key (← typeWithin depth)
    | .keyword .interface =>
      let _ ← advance
      let _ ← expect (.mark .leftBrace)
      let _ ← expect (.mark .rightBrace)
      return .interface TypeExpr.emptyInterface
    | .identifier =>
      let first ← advance
      return .ofName (← qualifiedName first.text)
    | _ => fail .expectedType

/-- The number of tokens before the next line feed. -/
def lineLength (stream : Stream) : Nat :=
  (stream.ahead.takeWhile fun token => token.kind ≠ .newline).length

/-- A type expression. -/
def typeExpr : Rule TypeExpr := fun stream => typeWithin (lineLength stream + 1) stream

end ApiDescription.Rule
