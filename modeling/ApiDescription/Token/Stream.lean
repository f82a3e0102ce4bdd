import ApiDescription.Reading
import ApiDescription.Token.Lexer

/-!
# Token streams

A stream is what the grammar reads from: the tokens ahead, and the token that
stands at the end of the text. The end is never passed; reading there gives the
end token again.
-/

namespace ApiDescription

/-- The tokens still to be read, the end token behind them, and the number of
tokens read so far. -/
structure Stream where
  ahead : List Token
  finish : Token
  position : Nat := 0
  deriving DecidableEq, Repr

namespace Stream

instance : Remaining Stream := ⟨fun stream => stream.ahead.length⟩

/-- The stream over a list of tokens, up to the first end of text among them. -/
def ofTokens (tokens : List Token) : Stream :=
  { ahead := tokens.takeWhile (·.kind ≠ .endOfText)
    finish := (tokens.find? (·.kind = .endOfText)).getD (Token.finish .start) }

/-- The next token, or the end token. -/
def current (stream : Stream) : Token := stream.ahead.headD stream.finish

/-- The stream behind the next token; at the end it stays. -/
def next (stream : Stream) : Stream :=
  match stream.ahead with
  | [] => stream
  | _ :: rest => { stream with ahead := rest, position := stream.position + 1 }

/-- The stream behind the next `count` tokens. -/
def skip (stream : Stream) (count : Nat) : Stream :=
  { stream with
    ahead := stream.ahead.drop count
    position := stream.position + (stream.ahead.take count).length }

/-- Skipping one token is moving behind it. -/
theorem skip_one (stream : Stream) : stream.skip 1 = stream.next := by
  obtain ⟨ahead, finish, position⟩ := stream
  cases ahead <;> rfl

/-- Moving behind a token leaves one token fewer, unless none is left. -/
theorem length_ahead_next (stream : Stream) :
    stream.next.ahead.length = stream.ahead.length - 1 := by
  obtain ⟨ahead, finish, position⟩ := stream
  cases ahead <;> simp [next]

end Stream

end ApiDescription
