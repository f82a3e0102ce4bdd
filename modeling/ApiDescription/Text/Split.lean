/-!
# Cutting text at a separator

`splitOn` cuts a text at every occurrence of a separator, keeping empty parts, so
that joining the parts with the separator gives the text back.
-/

namespace ApiDescription.Text

variable {α : Type} [DecidableEq α]

/-- The parts of a text between the occurrences of a separator; never an empty list. -/
def splitOn (separator : α) : List α → List (List α)
  | [] => [[]]
  | c :: rest =>
    if c = separator then [] :: splitOn separator rest
    else match splitOn separator rest with
      | [] => [[c]]
      | part :: parts => (c :: part) :: parts

/-- The lines of a text, without their line feeds. -/
def lines (text : List Char) : List (List Char) := splitOn '\n' text

/-- The parts of a text at a separator, as strings. -/
def splitString (separator : Char) (text : String) : List String :=
  (splitOn separator text.toList).map String.ofList

/-- Cutting gives at least one part. -/
theorem splitOn_ne_nil (separator : α) (text : List α) : splitOn separator text ≠ [] := by
  cases text with
  | nil => simp [splitOn]
  | cons c rest =>
    unfold splitOn
    split
    · simp
    · split <;> simp

/-- Joining the parts with the separator restores the text. -/
theorem intercalate_splitOn (separator : α) (text : List α) :
    [separator].intercalate (splitOn separator text) = text := by
  induction text with
  | nil => rfl
  | cons c rest inductionHypothesis =>
    cases parts : splitOn separator rest with
    | nil => exact absurd parts (splitOn_ne_nil separator rest)
    | cons part others =>
      rw [parts] at inductionHypothesis
      by_cases here : c = separator
      · subst here
        simp only [splitOn, parts, ↓reduceIte]
        rw [← inductionHypothesis]
        rfl
      · simp only [splitOn, here, parts, ↓reduceIte]
        rw [← inductionHypothesis]
        cases others <;> simp [List.intercalate, List.intersperse]

/-- Cutting a text is what the library calls so. -/
theorem splitOn_eq (separator : α) (text : List α) :
    splitOn separator text = text.splitOn separator := by
  induction text with
  | nil => rfl
  | cons c rest inductionHypothesis =>
    rw [splitOn, inductionHypothesis, List.splitOn_cons_eq_if_modifyHead]
    cases parts : rest.splitOn separator with
    | nil => exact absurd parts (List.splitOn_ne_nil _ _)
    | cons part others => simp

/-- Parts without separators are those of the text that joins them. -/
theorem splitOn_intercalate (separator : α) {parts : List (List α)}
    (apart : ∀ part ∈ parts, separator ∉ part) (some : parts ≠ []) :
    splitOn separator ([separator].intercalate parts) = parts := by
  rw [splitOn_eq]
  exact List.splitOn_intercalate separator apart some

/-- No part holds a separator. -/
theorem not_mem_of_mem_splitOn {separator : α} {text part : List α}
    (member : part ∈ splitOn separator text) : separator ∉ part := by
  induction text generalizing part with
  | nil =>
    rw [List.mem_singleton.mp member]
    exact List.not_mem_nil
  | cons c rest inductionHypothesis =>
    unfold splitOn at member
    split at member
    · rcases List.mem_cons.mp member with rfl | member
      · exact List.not_mem_nil
      · exact inductionHypothesis member
    · next goesOn =>
      split at member
      · next none => exact absurd none (splitOn_ne_nil separator rest)
      · next first others parts =>
        rw [parts] at inductionHypothesis
        rcases List.mem_cons.mp member with rfl | member
        · rw [List.mem_cons, not_or]
          exact ⟨Ne.symm goesOn, inductionHypothesis List.mem_cons_self⟩
        · exact inductionHypothesis (List.mem_cons_of_mem _ member)

end ApiDescription.Text
