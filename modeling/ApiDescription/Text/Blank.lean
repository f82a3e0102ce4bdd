import ApiDescription.Text.CodePoint

/-!
# Blank characters

Blanks are what surrounds a value without belonging to it: the ASCII blanks and
information separators, and the space, line and paragraph separators of every
script. `trim` removes them from both ends.
-/

namespace ApiDescription.Text

/-- The blanks beyond ASCII: next line, and the space, line and paragraph separators. -/
def blankRanges : List (Nat × Nat) :=
  [(133, 133), (160, 160), (5760, 5760), (8192, 8202), (8232, 8233), (8239, 8239),
   (8287, 8287), (12288, 12288)]

/-- Whether a character is blank. -/
def isBlank (c : Char) : Bool :=
  if c.toNat < 128 then
    c.toNat == 32 || (9 ≤ c.toNat && c.toNat ≤ 13) || (28 ≤ c.toNat && c.toNat ≤ 31)
  else inRanges blankRanges c.toNat

variable {α : Type}

/-- Drops the longest run of elements in a class from the end. -/
def dropEndWhile (p : α → Bool) (list : List α) : List α :=
  (list.reverse.dropWhile p).reverse

/-- Drops the elements in a class from both ends and keeps what lies between. -/
def trimWhile (p : α → Bool) (list : List α) : List α := dropEndWhile p (list.dropWhile p)

/-- Characters without the blanks at both ends. -/
def trimChars (chars : List Char) : List Char := trimWhile isBlank chars

/-- A text without the blanks at both ends. -/
def trim (text : Text) : Text := trimWhile (·.satisfies isBlank) text

/-- A list that ends with an element outside the class is left as it is. -/
theorem dropEndWhile_eq_self {p : α → Bool} {list : List α}
    (last : ∀ a, list.getLast? = some a → p a = false) : dropEndWhile p list = list := by
  unfold dropEndWhile
  cases reversed : list.reverse with
  | nil => simpa using reversed.symm
  | cons a rest =>
    have final : list.getLast? = some a := by
      rw [List.getLast?_eq_head?_reverse, reversed, List.head?_cons]
    rw [List.dropWhile_cons, last a final]
    simp [← reversed]

/-- A list that begins and ends outside the class is left as it is. -/
theorem trimWhile_eq_self {p : α → Bool} {list : List α}
    (first : ∀ a ∈ list.head?, p a = false) (last : ∀ a ∈ list.getLast?, p a = false) :
    trimWhile p list = list := by
  have front : list.dropWhile p = list := by
    cases list with
    | nil => rfl
    | cons a rest => rw [List.dropWhile_cons_of_neg (by simp [first a rfl])]
  rw [trimWhile, front, dropEndWhile_eq_self last]

/-- An element of the class at each end does not count. -/
theorem trimWhile_enclosed {p : α → Bool} {a b : α} (list : List α) (first : p a = true)
    (last : p b = true) : trimWhile p (a :: list ++ [b]) = trimWhile p list := by
  have front : (a :: list ++ [b]).dropWhile p = (list ++ [b]).dropWhile p := by
    rw [List.cons_append, List.dropWhile_cons_of_pos first]
  rw [trimWhile, trimWhile, front, List.dropWhile_append]
  split
  · next isEmpty =>
    rw [List.isEmpty_iff.mp isEmpty, List.dropWhile_cons_of_pos last, List.dropWhile_nil]
  · rw [dropEndWhile, dropEndWhile, List.reverse_append, List.reverse_singleton,
      List.singleton_append, List.dropWhile_cons_of_pos last]

end ApiDescription.Text
