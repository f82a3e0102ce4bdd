import ApiDescription.Decimal.Shortest
import ApiDescription.OrderedMap
import ApiDescription.Text.Quoted

/-!
# JSON values

Objects keep all their members in the order they were written, repeated keys
included; what a repetition means is decided by who looks a key up. Strings are
code points, because an escape may name a surrogate that has no partner.
-/

namespace ApiDescription

/-- A JSON number. The three literals that name no number are accepted as well. -/
inductive Json.Number where
  | integer (value : Int)
  | decimal (value : Decimal)
  | infinity (negative : Bool)
  | notANumber
  deriving DecidableEq, Repr, Inhabited

/-- A JSON value. -/
inductive Json where
  | null
  | bool (value : Bool)
  | number (value : Json.Number)
  | text (value : Text)
  | list (items : List Json)
  | object (members : List (Text × Json))
  deriving Repr, Inhabited

namespace Json

/-- The members of an object. -/
abbrev Members := List (Text × Json)

/-- The value of a key: of its last occurrence. -/
def member? (members : Members) (key : Text) : Option Json :=
  (members.reverse.find? fun entry => entry.1 = key).map Prod.snd

mutual

/-- Whether no string and no key in a value has a lone surrogate. -/
def isTextual : Json → Bool
  | .text value => value.isTextual
  | .list items => areTextual items
  | .object members => membersTextual members
  | _ => true

/-- Whether no string and no key in a list of values has a lone surrogate. -/
def areTextual : List Json → Bool
  | [] => true
  | item :: rest => item.isTextual && areTextual rest

/-- Whether no string and no key in a list of members has a lone surrogate. -/
def membersTextual : List (Text × Json) → Bool
  | [] => true
  | (key, value) :: rest => key.isTextual && value.isTextual && membersTextual rest

end

end Json

end ApiDescription
