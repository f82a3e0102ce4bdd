import ApiDescription.Document.Printer
import ApiDescription.Proofs.Document.Types

/-!
# Written lines

The lines of the canonical source in pieces: docs, comments behind a construct, and
property blocks. Whole lines can be put in front of each other without any care,
because nothing continues a line feed.
-/

namespace ApiDescription

open Piece

/-- The text of lines, with a line feed behind every line. -/
def Line.text (lines : List Line) : List Char := lines.flatMap (· ++ ['\n'])

theorem Line.text_append (first second : List Line) :
    Line.text (first ++ second) = Line.text first ++ Line.text second := List.flatMap_append

/-- Words with blanks between them, when the first word is there. -/
theorem Line.ofWords_cons {word : List Char} (present : word ≠ []) (words : List (List Char)) :
    Line.ofWords (word :: words) =
      word ++ words.flatMap fun other => if other = [] then [] else ' ' :: other := by
  induction words generalizing word with
  | nil => simp [ofWords, present, List.intercalate]
  | cons other words inductionHypothesis =>
    by_cases absent : other = []
    · have same : ofWords (word :: other :: words) = ofWords (word :: words) := by
        simp [ofWords, absent, present]
      rw [same, inductionHypothesis present]
      simp [absent]
    · have step : ofWords (word :: other :: words) = word ++ ' ' :: ofWords (other :: words) := by
        simp [ofWords, present, absent, List.intercalate]
      rw [step, inductionHypothesis absent]
      simp [absent]

/-- A word that is absent takes no place in a line. -/
theorem Line.ofWords_nil (words : List (List Char)) :
    Line.ofWords ([] :: words) = Line.ofWords words := by simp [ofWords]

/-- Whole lines in pieces: they have the text of the lines, can be read in front of whatever can
be read at the start of a line, and end with a line feed if there are any. -/
structure WrittenAs (lines : List Line) (pieces : List Piece) : Prop where
  text : textOf pieces = Line.text lines
  flows : ∀ {rest}, Flows feed rest → Flows feed (pieces ++ rest)
  last : pieces.getLastD feed = feed

namespace WrittenAs

/-- No lines. -/
theorem nil : WrittenAs [] [] := ⟨rfl, id, rfl⟩

/-- An empty line. -/
theorem emptyLine : WrittenAs [[]] [feed] := ⟨rfl, .feed, rfl⟩

/-- Lines above lines. -/
theorem append {above below : List Line} {start rest : List Piece} (first : WrittenAs above start)
    (second : WrittenAs below rest) : WrittenAs (above ++ below) (start ++ rest) where
  text := by rw [textOf_append, first.text, second.text, Line.text_append]
  flows flows := by
    rw [List.append_assoc]
    exact first.flows (second.flows flows)
  last := by
    have later := second.last
    rw [List.getLastD_eq_getLast?] at later ⊢
    rw [List.getLast?_append]
    cases ends : rest.getLast? with
    | none =>
      rw [Option.none_or, ← List.getLastD_eq_getLast?]
      exact first.last
    | some piece => rwa [ends] at later

/-- A line. -/
theorem line {line : Line} {pieces : List Piece} (text : textOf pieces = line)
    (flows : ∀ {rest}, Flows feed rest → Flows feed (pieces ++ feed :: rest)) :
    WrittenAs [line] (pieces ++ [feed]) where
  text := by simp [Line.text, text, feed, chars]
  flows rest := by
    rw [List.append_assoc]
    exact flows rest
  last := List.getLastD_concat

/-- Lines of one after the other. -/
theorem flatMap {α : Type} {items : List α} {lines : α → List Line} {pieces : α → List Piece}
    (each : ∀ item ∈ items, WrittenAs (lines item) (pieces item)) :
    WrittenAs (items.flatMap lines) (items.flatMap pieces) := by
  induction items with
  | nil => exact nil
  | cons item items inductionHypothesis =>
    rw [List.flatMap_cons, List.flatMap_cons]
    exact (each item List.mem_cons_self).append
      (inductionHypothesis fun other member => each other (List.mem_cons_of_mem _ member))

end WrittenAs

namespace Piece

variable {before : Piece} {rest : List Piece} {text : Text}

/-- A comment may stand where nothing is continued, but not behind a colon. -/
theorem Flows.comment (lexeme : text.IsLexeme .comment) (opens : before.Open)
    (noScheme : before.chars.getLast? ≠ some ':') (flows : Flows (plain .comment text) rest) :
    Flows before (plain .comment text :: rest) :=
  ⟨lexeme.spelled, ⟨fun c _ => opens c, fun _ _ => ⟨fun _ => noScheme, fun _ => rfl⟩⟩, flows⟩

/-- A text aside is what a line has it as. -/
theorem textOf_aside {text : Text} (textual : text.isTextual = true) (kind : Kind) :
    textOf (aside kind text) = if text.chars = [] then [] else ' ' :: text.chars := by
  unfold aside
  by_cases absent : text = []
  · simp [absent, Text.chars]
  · have present : text.chars ≠ [] := by
      intro none
      have same := Text.ofChars_chars textual
      rw [none] at same
      exact absent same.symm
    simp [absent, present, chars, plain]

/-- A comment may stand at the end of a line. -/
theorem Flows.aside_comment (optional : text.IsOptional .comment) (spaced : before.Spaced)
    (flows : Flows .feed rest) : Flows before (aside .comment text ++ .feed :: rest) := by
  unfold aside
  split
  · exact .feed flows
  · next present =>
    have lexeme := optional.resolve_left present
    exact .blank_of_spaced spaced (.comment lexeme open_blank (by decide) (.feed flows))

end Piece

/-- Docs above a construct. -/
theorem writtenAs_ofDocs {docs : List Text} (areDocs : AreDocs docs) :
    WrittenAs (Line.ofDocs docs) (ofDocs docs) := by
  rw [Line.ofDocs, List.map_eq_flatMap, ofDocs]
  refine WrittenAs.flatMap fun doc member => ?_
  change WrittenAs [doc.chars] ([plain .comment doc] ++ [feed])
  refine .line ?_ ?_
  · simp [plain, chars]
  · exact fun flows => .comment (areDocs doc member) open_feed (by decide) (.feed flows)

end ApiDescription
