import ApiDescription.Token.Lexer

/-!
# Scanners

A scanner is a cursor together with the tokens read so far. Its commands may be
given in any order, also after a fault; whatever the order, the cursor stays
inside the text and keeps its location exact.
-/

namespace ApiDescription

/-- A text being read, and the tokens read from it so far. -/
structure Scanner where
  cursor : Cursor
  tokens : List Token := []

namespace Scanner

/-- What a scanner can be told to do. -/
inductive Command where
  | current
  | peek (distance : Int)
  | advance
  | gap
  | afterScheme
  | lineComment
  | blockComment
  | quotedText
  | rawText
  | readWhile (holds : Char → Bool)
  | path
  | number
  | identifier
  | tokenize

/-- Whether a command reads all tokens. The others read one lexeme at most. -/
def Command.readsAll : Command → Bool
  | .tokenize => true
  | _ => false

/-- Why a command fails: at characters that cannot be read, or because it looks for a character
further before the start than the text is long. -/
inductive Fault where
  | unreadable (error : SyntaxError)
  | outOfText
  deriving DecidableEq, Repr

/-- What a command answers. -/
inductive Answer where
  | done
  | character (found : Option Char)
  | flag (value : Bool)
  | text (value : String)
  | tokens (read : List Token)
  deriving DecidableEq, Repr

/-- The scanner at the start of a text. -/
def ofText (text : List Char) : Scanner := ⟨.ofText text, []⟩

/-- The character at a signed distance, and none from the end of the text on. Before the start
of the text, places count from its end. -/
def peek (scanner : Scanner) (distance : Int) : Except Fault Answer :=
  match (scanner.cursor.location.offset : Int) + distance with
  | .ofNat index => .ok (.character scanner.cursor.text[index]?)
  | .negSucc index =>
    match scanner.cursor.text.reverse[index]? with
    | some found => .ok (.character (some found))
    | none => .error .outOfText

/-- Runs a scan on the cursor alone. -/
def scan (action : Scan Answer) (scanner : Scanner) : Except SyntaxError Answer × Scanner :=
  match action scanner.cursor with
  | .ok answer cursor => (.ok answer, { scanner with cursor })
  | .error fault cursor => (.error fault, { scanner with cursor })

/-- Reads the rest of the text. Tokens read before a fault are kept, and reading
on later adds to them. -/
def readAll (scanner : Scanner) : Except SyntaxError Answer × Scanner :=
  let series := Scan.tokens scanner.cursor
  let read := scanner.tokens ++ series.items
  match series.fault with
  | some fault => (.error fault, ⟨series.state, read⟩)
  | none =>
    let complete := read ++ [Token.finish series.state.location]
    (.ok (.tokens complete), ⟨series.state, complete⟩)

/-- An answer, or the characters that could not be read. -/
def report (outcome : Except SyntaxError Answer × Scanner) : Except Fault Answer × Scanner :=
  (outcome.1.mapError .unreadable, outcome.2)

/-- Carries out one command. -/
def run (scanner : Scanner) : Command → Except Fault Answer × Scanner
  | .current => (.ok (.character scanner.cursor.current?), scanner)
  | .peek distance => (scanner.peek distance, scanner)
  | .advance => report (scanner.scan (Scan.advance *> pure .done))
  | .gap => report (scanner.scan (Scan.gap *> pure .done))
  | .afterScheme => report (scanner.scan (.flag <$> Scan.afterScheme))
  | .lineComment => report (scanner.scan (.text <$> Scan.lineComment))
  | .blockComment => report (scanner.scan (.text <$> Scan.blockComment))
  | .quotedText => report (scanner.scan (.text <$> Scan.quotedText))
  | .rawText => report (scanner.scan (.text <$> Scan.rawText))
  | .readWhile holds => report (scanner.scan (.text <$> Scan.takeWhile holds))
  | .path => report (scanner.scan (.text <$> Scan.path))
  | .number => report (scanner.scan (.text <$> Scan.number))
  | .identifier => report (scanner.scan (.text <$> Scan.identifier))
  | .tokenize => report scanner.readAll

/-- The scanner after a list of commands. -/
def runAll (scanner : Scanner) (commands : List Command) : Scanner :=
  commands.foldl (fun current command => (current.run command).2) scanner

end Scanner

end ApiDescription
