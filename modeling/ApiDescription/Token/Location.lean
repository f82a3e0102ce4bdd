/-!
# Locations in a source text

A location counts characters, lines and columns at once. It is a fold over the
text that precedes it, so that every way of reaching a place gives the same
location.
-/

namespace ApiDescription

/-- A place in a text: the number of characters before it, and its line and
column, both counted from one. -/
structure Location where
  offset : Nat := 0
  line : Nat := 1
  column : Nat := 1
  deriving DecidableEq, Repr, Inhabited

/-- The start of a text. -/
def Location.start : Location := {}

/-- The location after one more character. A line feed is the last character of
its line. -/
def Location.next (place : Location) (c : Char) : Location :=
  if c = '\n' then ⟨place.offset + 1, place.line + 1, 1⟩
  else ⟨place.offset + 1, place.line, place.column + 1⟩

/-- The location after a stretch of text. -/
def Location.after (place : Location) (text : List Char) : Location :=
  text.foldl Location.next place

@[simp] theorem Location.after_nil (place : Location) : place.after [] = place := rfl

@[simp] theorem Location.after_cons (place : Location) (c : Char) (text : List Char) :
    place.after (c :: text) = (place.next c).after text := rfl

/-- Moving over two stretches in turn is moving over both together. -/
theorem Location.after_append (place : Location) (first second : List Char) :
    place.after (first ++ second) = (place.after first).after second :=
  List.foldl_append

/-- A stretch of text moves the offset by its length. -/
theorem Location.offset_after (place : Location) (text : List Char) :
    (place.after text).offset = place.offset + text.length := by
  induction text generalizing place with
  | nil => simp
  | cons c text inductionHypothesis =>
    have step : (place.next c).offset = place.offset + 1 := by
      unfold Location.next; split <;> rfl
    simp only [Location.after_cons, inductionHypothesis, step, List.length_cons]
    omega

/-- A stretch of text moves the line by the line feeds it holds. -/
theorem Location.line_after (place : Location) (text : List Char) :
    (place.after text).line = place.line + text.count '\n' := by
  induction text generalizing place with
  | nil => simp
  | cons c text inductionHypothesis =>
    rw [Location.after_cons, inductionHypothesis]
    by_cases feed : c = '\n'
    · subst feed; simp [Location.next]; omega
    · simp [Location.next, feed]

end ApiDescription
