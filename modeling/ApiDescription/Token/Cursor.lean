import ApiDescription.Token.Location

/-!
# Cursors

A cursor stands between the characters already read and those still to come. The
text never changes while the cursor moves, and the location follows from the
characters read, because every movement is made by `skip`.
-/

namespace ApiDescription

/-- A place inside a text, with the text on both sides of it. -/
structure Cursor where
  /-- The characters already read, the nearest one first. -/
  before : List Char
  /-- The characters still to be read. -/
  rest : List Char
  location : Location
  deriving DecidableEq, Repr

namespace Cursor

/-- The cursor at the start of a text. -/
def ofText (text : List Char) : Cursor := ⟨[], text, Location.start⟩

/-- The whole text the cursor stands in. -/
def text (cursor : Cursor) : List Char := cursor.before.reverse ++ cursor.rest

/-- Moves over the next `count` characters, or to the end if there are fewer. -/
def skip (cursor : Cursor) (count : Nat) : Cursor :=
  let passed := cursor.rest.take count
  ⟨passed.reverse ++ cursor.before, cursor.rest.drop count, cursor.location.after passed⟩

/-- Moves over one character; at the end it stays. -/
def advance (cursor : Cursor) : Cursor := cursor.skip 1

/-- The next character. -/
def current? (cursor : Cursor) : Option Char := cursor.rest.head?

/-- The character read last. -/
def last? (cursor : Cursor) : Option Char := cursor.before.head?

/-- Moving a cursor leaves its text as it is. -/
@[simp] theorem text_skip (cursor : Cursor) (count : Nat) :
    (cursor.skip count).text = cursor.text := by
  simp [text, skip]

/-- Skipping nothing leaves the cursor in place. -/
@[simp] theorem skip_zero (cursor : Cursor) : cursor.skip 0 = cursor := by
  simp [skip]

/-- Two movements in turn are one movement over both distances. -/
theorem skip_skip (cursor : Cursor) (first second : Nat) :
    (cursor.skip first).skip second = cursor.skip (first + second) := by
  simp only [skip, List.take_add, List.drop_drop, List.reverse_append, List.append_assoc,
    Location.after_append]

/-- A movement over at least one remaining character leaves fewer to read. -/
theorem length_rest_skip (cursor : Cursor) (count : Nat) :
    (cursor.skip count).rest.length = cursor.rest.length - count := by
  simp [skip]

end Cursor

end ApiDescription
