import ApiDescription.Failure
import ApiDescription.Json

/-!
# Writing JSON

A value is written on one line without blanks, or with every item on a line of
its own. Characters beyond ASCII are written as they are or as escapes of their
UTF-16 units. Strings escape quotes, backslashes and control characters.
-/

namespace ApiDescription.Json

/-- How JSON is laid out: the indentation of each level, or none for a single line;
and whether only ASCII may be written. -/
structure Layout where
  indent : Option Int := some 2
  asciiOnly : Bool := false
  deriving DecidableEq, Repr, Inhabited

namespace Layout

/-- What stands between an opening bracket and the first item at a level. Negative
indentations count as none. -/
def lineBreak (layout : Layout) (level : Nat) : Text :=
  match layout.indent with
  | none => []
  | some width => .char '\n' :: List.replicate (width.toNat * level) (.char ' ')

/-- Whether an integer can be counted in 64 bits. -/
def IsCountable (width : Int) : Prop := -Int.pow 2 63 ≤ width ∧ width < Int.pow 2 63

instance (width : Int) : Decidable (IsCountable width) :=
  inferInstanceAs (Decidable (_ ∧ _))

/-- Why a layout cannot be carried out: a character is repeated to make an indentation, and
how often has to be countable in 64 bits. -/
def breakdown? (layout : Layout) : Option Breakdown :=
  layout.indent.bind fun width => if IsCountable width then none else some .widthUncountable

/-- What stands between a key and its value. -/
def colon (layout : Layout) : Text :=
  if layout.indent.isNone then Text.ofString ":" else Text.ofString ": "

end Layout

/-- The escape of a UTF-16 unit. -/
def escapeUnit (unit : Nat) : List Char := '\\' :: 'u' :: Text.hexDigits 4 unit

/-- The escapes of a character beyond ASCII: one, or two for a surrogate pair. -/
def escapeWide (point : Nat) : List Char :=
  if point < 0x10000 then escapeUnit point
  else
    let above := point - 0x10000
    escapeUnit (0xd800 + above / 0x400) ++ escapeUnit (0xdc00 + above % 0x400)

/-- One character of a string. -/
def escapeChar (asciiOnly : Bool) (c : Char) : List Char :=
  if c = '"' then ['\\', '"']
  else if c = '\\' then ['\\', '\\']
  else if c = '\n' then ['\\', 'n']
  else if c = '\r' then ['\\', 'r']
  else if c = '\t' then ['\\', 't']
  else if c = '\x08' then ['\\', 'b']
  else if c = '\x0c' then ['\\', 'f']
  else if c.toNat < 32 then escapeUnit c.toNat
  else if asciiOnly && 126 < c.toNat then escapeWide c.toNat
  else [c]

/-- One code point of a string. A lone surrogate is beyond ASCII, too. -/
def escapePoint (asciiOnly : Bool) : CodePoint → Text
  | .char c => Text.ofChars (escapeChar asciiOnly c)
  | .surrogate unit => if asciiOnly then Text.ofChars (escapeUnit unit) else [.surrogate unit]

/-- A string between quotes. -/
def printText (asciiOnly : Bool) (text : Text) : Text :=
  .char '"' :: text.flatMap (escapePoint asciiOnly) ++ [.char '"']

/-- A number. -/
def printNumber : Number → String
  | .integer value => toString value
  | .decimal value =>
    match Binary64.ofDecimal value with
    | .infinite negative => if negative then "-Infinity" else "Infinity"
    | finite => finite.text
  | .infinity negative => if negative then "-Infinity" else "Infinity"
  | .notANumber => "NaN"

mutual

/-- A value whose items stand one level deeper than `level`. -/
def printAt (layout : Layout) (level : Nat) : Json → Text
  | .null => Text.ofString "null"
  | .bool value => if value then Text.ofString "true" else Text.ofString "false"
  | .number value => Text.ofString (printNumber value)
  | .text value => printText layout.asciiOnly value
  | .list [] => Text.ofString "[]"
  | .list (item :: rest) =>
    .char '[' :: layout.lineBreak (level + 1) ++ printAt layout (level + 1) item ++
      printItems layout level rest ++ layout.lineBreak level ++ [.char ']']
  | .object [] => Text.ofString "\x7b\x7d"
  | .object ((key, value) :: rest) =>
    .char '\x7b' :: layout.lineBreak (level + 1) ++ printText layout.asciiOnly key ++
      layout.colon ++ printAt layout (level + 1) value ++
      printMembers layout level rest ++ layout.lineBreak level ++ [.char '\x7d']

/-- Further items of a list, each behind a comma. -/
def printItems (layout : Layout) (level : Nat) : List Json → Text
  | [] => []
  | item :: rest =>
    .char ',' :: layout.lineBreak (level + 1) ++ printAt layout (level + 1) item ++
      printItems layout level rest

/-- Further members of an object, each behind a comma. -/
def printMembers (layout : Layout) (level : Nat) : List (Text × Json) → Text
  | [] => []
  | (key, value) :: rest =>
    .char ',' :: layout.lineBreak (level + 1) ++ printText layout.asciiOnly key ++
      layout.colon ++ printAt layout (level + 1) value ++ printMembers layout level rest

end

/-- A value as JSON text. Lone surrogates stay in it unless only ASCII is written. -/
def print (layout : Layout) (value : Json) : Text := printAt layout 0 value

/-- A value as JSON text, if its layout can be carried out. -/
def write (layout : Layout) (value : Json) : Except Breakdown Text :=
  match layout.breakdown? with
  | some cause => .error cause
  | none => .ok (print layout value)

end ApiDescription.Json
