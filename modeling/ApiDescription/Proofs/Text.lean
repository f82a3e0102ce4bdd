import ApiDescription.Text.Blank
import ApiDescription.Text.Split
import Mathlib.Data.List.DropRight
import Mathlib.Data.List.TakeWhile

/-!
# The ends of a text, and its parts

What lies between the ends of a text neither begins nor ends in the class that is taken off, and
a text is its middle with elements of the class around it. The parts of a text behind the first
separator are those that stand between a separator and the next one, or the end.
-/

namespace ApiDescription.Text

variable {α : Type} {p : α → Bool}

/-- What is left when a class is dropped from the end is what the list begins with. -/
theorem dropEndWhile_isPrefix (p : α → Bool) (list : List α) : dropEndWhile p list <+: list := by
  have suffix := List.reverse_prefix.mpr (List.dropWhile_suffix p (l := list.reverse))
  rwa [List.reverse_reverse] at suffix

/-- What is left when a class is dropped from the end does not end in the class. -/
theorem getLast?_dropEndWhile (p : α → Bool) (list : List α) :
    ∀ a ∈ (dropEndWhile p list).getLast?, p a = false := by
  intro a isLast
  rw [dropEndWhile, List.getLast?_reverse] at isLast
  have outside := List.head?_dropWhile_not p list.reverse
  rw [isLast] at outside
  simpa using outside

/-- What is left between the ends does not begin in the class. -/
theorem head?_trimWhile (p : α → Bool) (list : List α) :
    ∀ a ∈ (trimWhile p list).head?, p a = false := by
  intro a isFirst
  obtain ⟨rest, begins⟩ := List.head?_eq_some_iff.mp isFirst
  obtain ⟨dropped, whole⟩ := dropEndWhile_isPrefix p (list.dropWhile p)
  rw [trimWhile] at begins
  rw [begins, List.cons_append] at whole
  have outside := List.head?_dropWhile_not p list
  rw [← whole] at outside
  simpa using outside

/-- What is left between the ends does not end in the class. -/
theorem getLast?_trimWhile (p : α → Bool) (list : List α) :
    ∀ a ∈ (trimWhile p list).getLast?, p a = false :=
  getLast?_dropEndWhile p _

/-- What is left between the ends was there before. -/
theorem mem_of_mem_trimWhile {list : List α} {a : α} (member : a ∈ trimWhile p list) : a ∈ list :=
  (List.dropWhile_suffix p).subset ((dropEndWhile_isPrefix p _).subset member)

/-- Elements of the class at the ends do not count. -/
theorem trimWhile_padded {before after : List α} (first : ∀ a ∈ before, p a = true)
    (last : ∀ a ∈ after, p a = true) (list : List α) :
    trimWhile p (before ++ list ++ after) = trimWhile p list := by
  have dropped (list : List α) : dropEndWhile p (list ++ after) = dropEndWhile p list := by
    rw [dropEndWhile, List.reverse_append, List.dropWhile_append_of_pos (by simpa using last),
      ← dropEndWhile]
  rw [trimWhile, trimWhile, List.append_assoc, List.dropWhile_append_of_pos first,
    List.dropWhile_append]
  split
  · next isEmpty =>
    rw [List.isEmpty_iff.mp isEmpty, List.dropWhile_eq_nil_iff.mpr last]
  · exact dropped _

/-- A list is what lies between its ends, with elements of the class around it. -/
theorem exists_trimWhile_padded (p : α → Bool) (list : List α) :
    ∃ before after, list = before ++ trimWhile p list ++ after ∧
      (∀ a ∈ before, p a = true) ∧ ∀ a ∈ after, p a = true := by
  have front : list.takeWhile p ++ list.dropWhile p = list := List.takeWhile_append_dropWhile
  have behind : trimWhile p list ++ (list.dropWhile p).rtakeWhile p = list.dropWhile p :=
    List.rdropWhile_append_rtakeWhile
  refine ⟨list.takeWhile p, (list.dropWhile p).rtakeWhile p, ?_, fun a => List.mem_takeWhile_imp,
    fun a => List.mem_rtakeWhile_imp⟩
  rw [List.append_assoc, behind, front]

variable [DecidableEq α] {separator : α}

/-- The first part of a text reaches to the first separator. -/
theorem exists_splitOn_eq (separator : α) (text : List α) :
    ∃ others, splitOn separator text = text.takeWhile (· ≠ separator) :: others := by
  induction text with
  | nil => exact ⟨[], rfl⟩
  | cons c rest inductionHypothesis =>
    obtain ⟨others, parts⟩ := inductionHypothesis
    by_cases here : c = separator
    · exact ⟨splitOn separator rest, by simp [splitOn, here]⟩
    · exact ⟨others, by simp [splitOn, here, parts]⟩

/-- A part behind the first separator stands between a separator and the next one, or the end. -/
theorem mem_tail_splitOn_iff {text part : List α} :
    part ∈ (splitOn separator text).tail ↔
      separator ∉ part ∧ ∃ before after, text = before ++ separator :: (part ++ after) ∧
        ∀ c ∈ after.head?, c = separator := by
  constructor
  · intro member
    refine ⟨not_mem_of_mem_splitOn (List.mem_of_mem_tail member), ?_⟩
    induction text with
    | nil => simp [splitOn] at member
    | cons c rest inductionHypothesis =>
      obtain ⟨others, parts⟩ := exists_splitOn_eq separator rest
      rw [parts, List.tail_cons] at inductionHypothesis
      have goesOn (member : part ∈ others) : ∃ before after,
          c :: rest = before ++ separator :: (part ++ after) ∧ ∀ d ∈ after.head?, d = separator := by
        obtain ⟨before, after, rfl, ended⟩ := inductionHypothesis member
        exact ⟨c :: before, after, rfl, ended⟩
      by_cases here : c = separator
      · simp only [splitOn, here, parts, ↓reduceIte, List.tail_cons, List.mem_cons] at member
        rcases member with rfl | member
        · refine ⟨[], rest.dropWhile (· ≠ separator), ?_, fun d isFirst => ?_⟩
          · rw [List.takeWhile_append_dropWhile, here, List.nil_append]
          · have outside := List.head?_dropWhile_not (· ≠ separator) rest
            rw [isFirst] at outside
            simpa using outside
        · exact goesOn member
      · simp only [splitOn, here, parts, ↓reduceIte, List.tail_cons] at member
        exact goesOn member
  · rintro ⟨apart, before, after, rfl, ended⟩
    obtain ⟨first, parts⟩ := exists_splitOn_eq separator before
    have isPart : part ∈ splitOn separator (part ++ after) := by
      cases after with
      | nil => simp [splitOn_eq, List.splitOn_eq_singleton apart]
      | cons c after =>
        obtain rfl := ended c rfl
        simp [splitOn_eq, List.splitOn_append_cons_self, List.splitOn_eq_singleton apart]
    rw [splitOn_eq, List.splitOn_append_cons_self, ← splitOn_eq, ← splitOn_eq, parts]
    exact List.mem_append_right _ isPart

end ApiDescription.Text
