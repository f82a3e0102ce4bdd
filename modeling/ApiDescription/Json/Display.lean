import ApiDescription.Decimal.Numeral
import ApiDescription.Json

/-!
# Showing JSON values as text

Where a text is wanted and another value stands, the value is shown: literals by
their names, numbers by their shortest text, and lists and objects with their
items quoted. A string shows as itself. An integer with too many digits cannot be
shown, and neither can a value that holds one.
-/

namespace ApiDescription.Json

/-- A number as text. -/
def Number.display : Number → String
  | .integer value => toString value
  | .decimal value => (Binary64.ofDecimal value).text
  | .infinity negative => if negative then "-inf" else "inf"
  | .notANumber => "nan"

/-- A key with its value. -/
def displayMember (member : Text × String) : String :=
  Text.quoted member.1 ++ ": " ++ member.2

mutual

/-- A value inside a list or an object. -/
def displayNested : Json → String
  | .null => "None"
  | .bool value => if value then "True" else "False"
  | .number value => value.display
  | .text value => Text.quoted value
  | .list items => "[" ++ String.intercalate ", " (displayItems items) ++ "]"
  | .object members =>
    "\x7b" ++ String.intercalate ", "
      ((OrderedMap.ofList (displayMembers members)).entries.map displayMember) ++ "\x7d"

/-- The items of a list, each shown. -/
def displayItems : List Json → List String
  | [] => []
  | item :: rest => displayNested item :: displayItems rest

/-- The members of an object with their values shown. -/
def displayMembers : List (Text × Json) → List (Text × String)
  | [] => []
  | (key, value) :: rest => (key, displayNested value) :: displayMembers rest

end

/-- A value as text. -/
def display : Json → Text
  | .text value => value
  | other => Text.ofString other.displayNested

mutual

/-- Whether all integers in a value have few enough digits to be shown. -/
def isShowable : Json → Bool
  | .number (.integer value) => Numeral.isShowable value
  | .list items => areShowable items
  | .object members => (OrderedMap.ofList (showableMembers members)).entries.all Prod.snd
  | _ => true

/-- Whether the items of a list can be shown. -/
def areShowable : List Json → Bool
  | [] => true
  | item :: rest => isShowable item && areShowable rest

/-- The members of an object, and which of their values can be shown. -/
def showableMembers : List (Text × Json) → List (Text × Bool)
  | [] => []
  | (key, value) :: rest => (key, isShowable value) :: showableMembers rest

end

/-- A value as text, if it can be shown. -/
def display? (value : Json) : Option Text :=
  if value.isShowable then some value.display else none

end ApiDescription.Json
