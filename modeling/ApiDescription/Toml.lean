import ApiDescription.Decimal.Numeral
import ApiDescription.Decimal.Shortest
import ApiDescription.OrderedMap
import ApiDescription.Text.Quoted

/-!
# TOML values

Besides texts, numbers and truth values TOML knows dates, times of day, and moments
with or without a zone. A value can be shown as text, unless it holds an integer with
too many digits; inside a list or a table it is shown in the notation of a
constructor call.
-/

namespace ApiDescription

namespace Toml

/-- A day of the calendar. -/
structure Date where
  year : Nat
  month : Nat
  day : Nat
  deriving DecidableEq, Repr, Inhabited

/-- A time of day. -/
structure Time where
  hour : Nat
  minute : Nat
  second : Nat
  microsecond : Nat
  deriving DecidableEq, Repr, Inhabited

/-- A number with a point, or the value that is none. -/
inductive Float where
  | number (value : Binary64)
  | notANumber
  deriving DecidableEq, Repr, Inhabited

/-- A day, a time of day, or both, perhaps at a distance of minutes from universal time. -/
inductive Moment where
  | date (value : Date)
  | time (value : Time)
  | dateTime (date : Date) (time : Time) (zone : Option Int)
  deriving DecidableEq, Repr, Inhabited

end Toml

/-- A TOML value. -/
inductive Toml where
  | text (value : String)
  | integer (value : Int)
  | float (value : Toml.Float)
  | bool (value : Bool)
  | moment (value : Toml.Moment)
  | list (items : List Toml)
  | table (entries : List (String × Toml))
  deriving Repr, Inhabited

namespace Toml

/-- Whether a year has a leap day. -/
def isLeapYear (year : Nat) : Bool :=
  year % 4 = 0 && (year % 100 ≠ 0 || year % 400 = 0)

/-- The number of days of a month. -/
def daysIn (year month : Nat) : Nat :=
  if month = 2 then (if isLeapYear year then 29 else 28)
  else if [4, 6, 9, 11].contains month then 30
  else 31

/-- Whether a date exists. There is no year zero. -/
def Date.exists (date : Date) : Bool :=
  1 ≤ date.year && 1 ≤ date.month && date.month ≤ 12 && 1 ≤ date.day &&
    date.day ≤ daysIn date.year date.month

/-- A number with leading zeros up to a width. -/
def padded (width value : Nat) : String :=
  let digits := Nat.toDigits 10 value
  String.ofList (List.replicate (width - digits.length) '0' ++ digits)

/-- A date as text. -/
def Date.display (date : Date) : String :=
  padded 4 date.year ++ "-" ++ padded 2 date.month ++ "-" ++ padded 2 date.day

/-- A time as text, with a fraction unless it is zero. -/
def Time.display (time : Time) : String :=
  padded 2 time.hour ++ ":" ++ padded 2 time.minute ++ ":" ++ padded 2 time.second ++
    (if time.microsecond = 0 then "" else "." ++ padded 6 time.microsecond)

/-- A distance from universal time as text. -/
def displayZone (minutes : Int) : String :=
  (if minutes < 0 then "-" else "+") ++ padded 2 (minutes.natAbs / 60) ++ ":" ++
    padded 2 (minutes.natAbs % 60)

/-- A moment as text. -/
def Moment.display : Moment → String
  | .date value => value.display
  | .time value => value.display
  | .dateTime day clock zone =>
    day.display ++ " " ++ clock.display ++ (zone.map displayZone).getD ""

/-- A number as text. -/
def Float.display : Float → String
  | .number value => value.text
  | .notANumber => "nan"

/-- The arguments of a time in a constructor call: zero seconds and microseconds at
the end are left out. -/
def Time.arguments (time : Time) : List Nat :=
  if time.microsecond ≠ 0 then [time.hour, time.minute, time.second, time.microsecond]
  else if time.second ≠ 0 then [time.hour, time.minute, time.second]
  else [time.hour, time.minute]

/-- A distance from universal time as a constructor call: whole days below zero, and
seconds. -/
def zoneCall (minutes : Int) : String :=
  if minutes = 0 then "datetime.timezone.utc"
  else
    let seconds := (minutes * 60) % 86400
    let days := if minutes < 0 then "days=-1, " else ""
    "datetime.timezone(datetime.timedelta(" ++ days ++ "seconds=" ++ toString seconds ++ "))"

/-- A call with its arguments. -/
def call (name : String) (arguments : List String) : String :=
  name ++ "(" ++ String.intercalate ", " arguments ++ ")"

/-- A moment as a constructor call. -/
def Moment.call : Moment → String
  | .date value =>
    Toml.call "datetime.date" ([value.year, value.month, value.day].map toString)
  | .time value => Toml.call "datetime.time" (value.arguments.map toString)
  | .dateTime day clock zone =>
    Toml.call "datetime.datetime"
      (([day.year, day.month, day.day] ++ clock.arguments).map toString ++
        (zone.map fun minutes => "tzinfo=" ++ zoneCall minutes).toList)

mutual

/-- A value inside a list or a table. -/
def displayNested : Toml → String
  | .text value => Text.quoted value
  | .integer value => toString value
  | .float value => value.display
  | .bool value => if value then "True" else "False"
  | .moment value => value.call
  | .list items => "[" ++ String.intercalate ", " (displayItems items) ++ "]"
  | .table entries => "\x7b" ++ String.intercalate ", " (displayEntries entries) ++ "\x7d"

/-- The items of a list. -/
def displayItems : List Toml → List String
  | [] => []
  | item :: rest => displayNested item :: displayItems rest

/-- The entries of a table. -/
def displayEntries : List (String × Toml) → List String
  | [] => []
  | (key, value) :: rest =>
    (Text.quoted key ++ ": " ++ displayNested value) :: displayEntries rest

end

/-- A value as text. -/
def display : Toml → String
  | .text value => value
  | .moment value => value.display
  | other => other.displayNested

mutual

/-- Whether all integers in a value have few enough digits to be shown. -/
def isShowable : Toml → Bool
  | .integer value => Numeral.isShowable value
  | .list items => areShowable items
  | .table entries => entriesShowable entries
  | _ => true

/-- Whether the items of a list can be shown. -/
def areShowable : List Toml → Bool
  | [] => true
  | item :: rest => isShowable item && areShowable rest

/-- Whether the entries of a table can be shown. -/
def entriesShowable : List (String × Toml) → Bool
  | [] => true
  | (_, value) :: rest => isShowable value && entriesShowable rest

end

/-- A value as text, if it can be shown. -/
def display? (value : Toml) : Option String :=
  if value.isShowable then some value.display else none

/-- Whether a value counts as yes: anything but no, zero, and what has no content. -/
def isTruthy : Toml → Bool
  | .text value => value ≠ ""
  | .integer value => value ≠ 0
  | .float (.number value) => !value.isZero
  | .float .notANumber => true
  | .bool value => value
  | .moment _ => true
  | .list items => !items.isEmpty
  | .table entries => !entries.isEmpty

end Toml

end ApiDescription
