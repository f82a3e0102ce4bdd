import ApiDescription.Path
import ApiDescription.SyntaxError

/-!
# Diagnostics

A diagnostic is a message with, if it concerns a place in a file, that place and
the source lines around it. The lines are numbered and a marker line under the
reported one points at its column.
-/

namespace ApiDescription

/-- Number of lines shown on each side of the reported line. -/
def snippetRadius : Nat := 2

/-- The lines of a text within a radius of a line counted from one. A last line
below zero counts from the end of the text. -/
def snippet (text : List Char) (line : Int) (radius : Int) : List Char :=
  let all := Text.lines text
  let first := (line - 1 - radius).toNat
  let bound := min (all.length : Int) (line + radius)
  let stop := if bound < 0 then ((all.length : Int) + bound).toNat else bound.toNat
  ['\n'].intercalate ((all.take stop).drop first)

/-- A place in a file, with the source lines around it. -/
structure Context where
  file : Path
  line : Int
  column : Int
  snippet : Option String := none
  deriving DecidableEq, Repr

namespace Context

/-- The margin of a numbered source line: the number in at least four columns, and a bar. -/
def margin (number : Int) : List Char :=
  let digits := (toString number).toList
  List.replicate (4 - digits.length) ' ' ++ digits ++ " | ".toList

/-- The numbered source lines from `number` on. Below the reported line stands
the marker, under the reported column. -/
def numbered (line column : Int) : Int → List (List Char) → List (List Char)
  | _, [] => []
  | number, source :: rest =>
    let shown := margin number ++ source
    let marker := List.replicate ((margin number).length + column - 1).toNat ' ' ++ "^^^".toList
    let later := numbered line column (number + 1) rest
    if number = line then shown :: marker :: later else shown :: later

/-- The place, and below it the source lines if there are any to show. -/
def format (context : Context) : String :=
  let place :=
    context.file.toString ++ ":" ++ toString context.line ++ ":" ++ toString context.column
  match context.snippet with
  | none | some "" => place
  | some source =>
    let first := max 1 (context.line - snippetRadius)
    let shown := numbered context.line context.column first (Text.lines source.toList)
    place ++ "\n" ++ String.ofList (['\n'].intercalate shown)

end Context

/-- A message, and the place it concerns. -/
structure Diagnostic where
  message : String
  context : Option Context := none
  deriving DecidableEq, Repr

/-- The message, below the place it concerns. -/
def Diagnostic.text (diagnostic : Diagnostic) : String :=
  match diagnostic.context with
  | some context => context.format ++ "\n" ++ diagnostic.message
  | none => diagnostic.message

/-- A syntax error as a diagnostic on its file, with the lines around it if the
source is at hand. -/
def SyntaxError.diagnostic (error : SyntaxError) (file : Path) (source : Option (List Char)) :
    Diagnostic :=
  { message := error.message
    context := some
      { file
        line := error.line
        column := error.column
        snippet := source.map fun text =>
          String.ofList (ApiDescription.snippet text error.line snippetRadius) } }

end ApiDescription
