import ApiDescription.Json

/-!
# Checked values

Decoding a tree finds all the places where it does not fit, not only the first.
A checked value is the decoded value or the list of its issues, each at a path of
keys and indexes; checked values are combined so that issues add up in order.
-/

namespace ApiDescription

/-- One step into a tree. -/
inductive Step where
  | key (name : Text)
  | index (position : Nat)
  deriving DecidableEq, Repr, Inhabited

/-- Why a value does not fit its place. -/
inductive Misfit where
  | notText | notList | notMap | notRecord
  | notBool | unreadableBool | missing | unknownKey | notJson
  deriving DecidableEq, Repr, Inhabited

/-- A misfit at a place. -/
structure Issue where
  path : List Step
  misfit : Misfit
  deriving DecidableEq, Repr, Inhabited

/-- A decoded value, or what is wrong with it. -/
inductive Checked (α : Type) where
  | valid (value : α)
  | invalid (issues : List Issue)
  deriving Repr

namespace Checked

variable {α β : Type}

/-- A single misfit at the place that is being looked at. -/
def misfit (kind : Misfit) : Checked α := .invalid [⟨[], kind⟩]

/-- Applies a checked function to a checked value; the issues of both add up. -/
def seq (f : Checked (α → β)) (x : Unit → Checked α) : Checked β :=
  match f, x () with
  | .valid f, .valid value => .valid (f value)
  | .valid _, .invalid issues => .invalid issues
  | .invalid issues, .valid _ => .invalid issues
  | .invalid first, .invalid second => .invalid (first ++ second)

instance : Applicative Checked where
  pure := .valid
  seq := seq

/-- The same value or issues, one step deeper in the tree. -/
def under (step : Step) : Checked α → Checked α
  | .valid value => .valid value
  | .invalid issues =>
    .invalid (issues.map fun issue => { issue with path := step :: issue.path })

/-- Checks all values of a list, numbering them from `position` on. -/
def each (check : α → Checked β) : (position : Nat) → List α → Checked (List β)
  | _, [] => pure []
  | position, value :: rest =>
    List.cons <$> (check value).under (.index position) <*> each check (position + 1) rest

end Checked

namespace Json

/-- A value that has to be a text. -/
def checkText : Json → Checked Text
  | .text value => .valid value
  | _ => .misfit .notText

/-- The entries of a map of texts. A place names its key without lone surrogates. -/
def checkEntries : Members → Checked (List (Text × Text))
  | [] => pure []
  | (key, value) :: rest =>
    (fun text entries => (key, text) :: entries) <$>
      value.checkText.under (.key key.replaceSurrogates) <*> checkEntries rest

end Json

end ApiDescription
