import ApiDescription.Proofs.Text
import ApiDescription.Spec.OfDocument
import ApiDescription.Text.Split

/-!
# Lists of middleware

The names of the middleware stand between commas, with blanks around them or without. Names that
a list gives can be written as a list again, and then the list gives the same names: blanks and
empty places between commas are the only things that are lost. Cutting at commas goes over a comma
between two lists, so that the names of a joined list are those of the one and then of the other.
-/

namespace ApiDescription

namespace Spec

/-- A name as a list of middleware gives it: it is not empty, holds no comma, and neither begins nor
ends with a blank. -/
structure IsMiddleware (name : Text) : Prop where
  nonempty : name ≠ []
  whole : .char ',' ∉ name
  first : ∀ point ∈ name.head?, point.satisfies Text.isBlank = false
  last : ∀ point ∈ name.getLast?, point.satisfies Text.isBlank = false

/-- Text that consists of blanks. -/
def IsGap (text : Text) : Prop := ∀ point ∈ text, point.satisfies Text.isBlank = true

/-- A comma is no blank. -/
theorem IsGap.comma_not_mem {gap : Text} (blank : IsGap gap) : .char ',' ∉ gap :=
  fun member => nomatch blank _ member

/-- The names of two lists with a comma between them are those of the first and then those of the
second. -/
theorem splitMiddleware_append (first second : Text) :
    splitMiddleware (first ++ .char ',' :: second) =
      splitMiddleware first ++ splitMiddleware second := by
  simp only [splitMiddleware, Text.splitOn_eq, List.splitOn_append_cons_self, List.map_append,
    List.filter_append]

/-- Every name that a list gives is one that can stand in a list. -/
theorem isMiddleware_of_mem {text name : Text} (member : name ∈ splitMiddleware text) :
    IsMiddleware name := by
  obtain ⟨isName, nonempty⟩ := List.mem_filter.mp member
  obtain ⟨part, isPart, rfl⟩ := List.mem_map.mp isName
  have apart : .char ',' ∉ part := Text.not_mem_of_mem_splitOn isPart
  exact ⟨by simpa using nonempty, fun inside => apart (Text.mem_of_mem_trimWhile inside),
    Text.head?_trimWhile _ _, Text.getLast?_trimWhile _ _⟩

/-- A place between commas gives its name, or nothing if there is none. -/
theorem splitMiddleware_of_not_mem {text : Text} (apart : .char ',' ∉ text) :
    splitMiddleware text = [text.trim].filter (· ≠ []) := by
  rw [splitMiddleware, Text.splitOn_eq, List.splitOn_eq_singleton apart, List.map_singleton]

/-- Blanks give no name. -/
theorem IsGap.splitMiddleware_eq {gap : Text} (blank : IsGap gap) : splitMiddleware gap = [] := by
  have trimmed : gap.trim = [] := by
    have padded := Text.trimWhile_padded blank (List.forall_mem_nil _) []
    rwa [List.append_nil, List.append_nil] at padded
  rw [splitMiddleware_of_not_mem blank.comma_not_mem, trimmed]
  rfl

/-- A name with blanks around it gives the name. -/
theorem IsMiddleware.splitMiddleware_eq {before after name : Text} (isName : IsMiddleware name)
    (blankBefore : IsGap before) (blankAfter : IsGap after) :
    splitMiddleware (before ++ name ++ after) = [name] := by
  have apart : .char ',' ∉ before ++ name ++ after := by
    simp only [List.mem_append, not_or]
    exact ⟨⟨blankBefore.comma_not_mem, isName.whole⟩, blankAfter.comma_not_mem⟩
  have trimmed : Text.trim (before ++ name ++ after) = name :=
    (Text.trimWhile_padded blankBefore blankAfter name).trans
      (Text.trimWhile_eq_self isName.first isName.last)
  rw [splitMiddleware_of_not_mem apart, trimmed]
  exact List.filter_eq_self.mpr (by simpa using isName.nonempty)

/-- Names with commas between them and blanks around the commas are the names of that list. The
blanks in front of the list are those behind the comma of a longer one. -/
theorem splitMiddleware_intercalate {before after : Text} (blankBefore : IsGap before)
    (blankAfter : IsGap after) {names : List Text} (areNames : ∀ name ∈ names, IsMiddleware name)
    {margin : Text} (blank : IsGap margin) :
    splitMiddleware (margin ++ (before ++ .char ',' :: after).intercalate names) = names := by
  induction names generalizing margin with
  | nil => simpa [List.intercalate] using blank.splitMiddleware_eq
  | cons name names inductionHypothesis =>
    rw [List.forall_mem_cons] at areNames
    obtain ⟨isName, areNames⟩ := areNames
    cases names with
    | nil =>
      have single : splitMiddleware (margin ++ name ++ []) = [name] :=
        isName.splitMiddleware_eq blank (List.forall_mem_nil _)
      simpa [List.intercalate] using single
    | cons second names =>
      have cut : margin ++ (before ++ .char ',' :: after).intercalate (name :: second :: names) =
          (margin ++ name ++ before) ++ .char ',' ::
            (after ++ (before ++ .char ',' :: after).intercalate (second :: names)) := by
        simp [List.intercalate, List.intersperse]
      rw [cut, splitMiddleware_append, isName.splitMiddleware_eq blank blankBefore,
        inductionHypothesis areNames blankAfter]
      rfl

/-- Cutting a list of middleware into names takes a comma between two lists for the end of the one
and the start of the other. It gives names that can stand in a list, and all lists of such names:
they are given by the list that joins them, whatever blanks stand around its commas. To join and
cut again what a list gives therefore changes nothing. -/
theorem splitMiddleware_canonical (first second : Text) :
    splitMiddleware (first ++ .char ',' :: second) =
      splitMiddleware first ++ splitMiddleware second ∧
    (∀ name ∈ splitMiddleware first, IsMiddleware name) ∧
    ∀ before after : Text, IsGap before → IsGap after →
      (∀ names : List Text, (∀ name ∈ names, IsMiddleware name) →
        splitMiddleware ((before ++ .char ',' :: after).intercalate names) = names) ∧
      splitMiddleware ((before ++ .char ',' :: after).intercalate (splitMiddleware first)) =
        splitMiddleware first := by
  refine ⟨splitMiddleware_append first second, fun name => isMiddleware_of_mem, ?_⟩
  intro before after blankBefore blankAfter
  have rejoined (names : List Text) (areNames : ∀ name ∈ names, IsMiddleware name) :
      splitMiddleware ((before ++ .char ',' :: after).intercalate names) = names :=
    splitMiddleware_intercalate blankBefore blankAfter areNames (List.forall_mem_nil _)
  exact ⟨rejoined, rejoined _ fun name => isMiddleware_of_mem⟩

/-- Two names with an ideographic space in front of the comma and a line feed behind it. -/
theorem splitMiddleware_canonical_spaced :
    IsGap "\u3000" ∧ IsGap "\n" ∧
    (∀ name ∈ ([Text.ofString "Log", Text.ofString "rate limit"] : List Text), IsMiddleware name) ∧
    splitMiddleware ((Text.ofString "\u3000" ++ .char ',' :: Text.ofString "\n").intercalate
      [Text.ofString "Log", Text.ofString "rate limit"]) =
        [Text.ofString "Log", Text.ofString "rate limit"] := by
  have blankBefore : IsGap "\u3000" := by unfold IsGap; decide
  have blankAfter : IsGap "\n" := by unfold IsGap; decide
  have areNames : ∀ name ∈ ([Text.ofString "Log", Text.ofString "rate limit"] : List Text),
      IsMiddleware name := by
    simp only [List.forall_mem_cons]
    exact ⟨⟨by decide, by decide, by decide, by decide⟩,
      ⟨by decide, by decide, by decide, by decide⟩, List.forall_mem_nil _⟩
  have laws := (splitMiddleware_canonical [] []).2.2
  exact ⟨blankBefore, blankAfter, areNames, (laws _ _ blankBefore blankAfter).1 _ areNames⟩

end Spec

end ApiDescription
