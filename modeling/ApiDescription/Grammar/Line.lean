import ApiDescription.Grammar.Basic

/-!
# Line ends and comments

Declarations, members, properties and routes end with their line. Comments
between them are either docs, which stand directly above what they document, or
trailing comments, which stand behind it on its line.
-/

namespace ApiDescription

/-- Whether a token separates lines without belonging to any construct. -/
def Token.isSpacing (token : Token) : Bool :=
  match token.kind with
  | .newline | .comment => true
  | _ => false

/-- The docs that a run of line feeds and comments leaves for what follows it:
the comments since the last blank line. `docs` are those seen so far, the latest
first, and `feeds` counts the line feeds since the last comment. -/
def docsOfRun : List Token → (docs : List Text) → (feeds : Nat) → List Text
  | [], docs, _ => docs.reverse
  | token :: rest, docs, feeds =>
    if token.kind = .comment then docsOfRun rest (token.text :: docs) 0
    else if feeds = 0 then docsOfRun rest docs 1
    else docsOfRun rest [] (feeds + 1)

namespace Rule

/-- The run of line feeds and comments at the current token, which is consumed. -/
def spacing : Rule (List Token) := fun stream =>
  let run := stream.ahead.takeWhile Token.isSpacing
  .ok run (stream.skip run.length)

/-- Skips line feeds and comments that document nothing. -/
def skipSpacing : Rule Unit := spacing *> pure ()

/-- Skips blank lines and answers the comments directly above the next token. A
blank line ends a group of comments. -/
def docs : Rule (List Text) := do
  return docsOfRun (← spacing) [] 0

/-- Consumes and answers a comment that starts on a given line, if one comes next. -/
def trailingComment (line : Nat) : Rule Text := do
  let token ← current
  if token.kind = .comment ∧ token.start.line = line then
    let _ ← advance
    return token.text
  else return []

/-- Ends a line: by a line feed, which is consumed, or by a closing bracket or the
end of the text, which are not. -/
def lineEnd : Rule Unit := do
  if ← sees .newline then
    let _ ← advance
  else if ← seesAny [.mark .rightBrace, .mark .rightParen, .endOfText] then
    pure ()
  else
    fail .expectedLineEnd

end Rule

end ApiDescription
