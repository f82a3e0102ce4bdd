import ApiDescription.Proofs.Token.Scanning

/-!
# Texts written in pieces

A text that is written token by token is a list of pieces: lexemes that have no place
yet, and single blanks between them. If every piece is spelled as the grammar of
lexemes says and none runs into the next one, the scanner reads exactly these
lexemes, and the places of the tokens follow from the pieces before them.
-/

namespace ApiDescription

/-- A piece of a text as it is written: a blank, or a token that has no place yet. -/
inductive Piece where
  | blank
  | token (kind : Kind) (slice : List Char) (value : String)

namespace Piece

/-- The line feed that ends a line. -/
def feed : Piece := .token .newline ['\n'] "\\n"

/-- A mark. -/
def mark (found : Mark) : Piece := .token (.mark found) [found.char] (String.singleton found.char)

/-- A keyword. -/
def keyword (word : Keyword) : Piece :=
  .token (.keyword word) word.spelling.toList word.spelling

/-- A marker with its at sign. -/
def marker (found : Marker) : Piece :=
  .token (.marker found) found.spelling.toList found.spelling

/-- A text between quotes. -/
def quoted (text : Text) : Piece :=
  .token .quotedText (Lexeme.quote text.chars) (String.ofList text.chars)

/-- A token that stands for itself. -/
def plain (kind : Kind) (text : Text) : Piece := .token kind text.chars (String.ofList text.chars)

/-- A text that stands for itself behind a blank, or nothing if it is empty. -/
def aside (kind : Kind) (text : Text) : List Piece :=
  if text = [] then [] else [blank, plain kind text]

/-- Docs, one on a line. -/
def ofDocs (docs : List Text) : List Piece := docs.flatMap fun doc => [plain .comment doc, feed]

/-- The characters of a piece. -/
def chars : Piece → List Char
  | blank => [' ']
  | token _ slice _ => slice

/-- The characters of pieces one after the other. -/
def textOf (pieces : List Piece) : List Char := pieces.flatMap chars

/-- The tokens of pieces that are written from a place on. -/
def tokensAt (place : Location) : List Piece → List Token
  | [] => []
  | .blank :: rest => tokensAt (place.next ' ') rest
  | .token kind slice value :: rest =>
    ⟨kind, value, place, (place.after slice).offset⟩ :: tokensAt (place.after slice) rest

/-- A piece that the grammar of lexemes knows. -/
def Spelled : Piece → Prop
  | blank => True
  | token kind slice value => Lexeme.Spells kind slice value

/-- Whether a character right behind a piece would be read as a part of it. -/
def continues : Piece → Char → Bool
  | blank, _ => false
  | token kind slice _, next => Lexeme.continues kind slice next

/-- Whether a piece goes with the character before it. -/
def Suits (last? : Option Char) : Piece → Prop
  | blank => True
  | token kind slice _ => Lexeme.Suits last? kind slice

/-- One piece may stand right behind another. -/
structure Meets (first second : Piece) : Prop where
  stops : ∀ c ∈ second.chars.head?, first.continues c = false
  suits : second.Suits first.chars.getLast?

/-- Pieces that can be read behind a given one. -/
def Flows : (before : Piece) → List Piece → Prop
  | _, [] => True
  | before, piece :: rest => piece.Spelled ∧ Meets before piece ∧ Flows piece rest

@[simp] theorem textOf_nil : textOf [] = [] := rfl

@[simp] theorem textOf_cons (piece : Piece) (rest : List Piece) :
    textOf (piece :: rest) = piece.chars ++ textOf rest := List.flatMap_cons

@[simp] theorem textOf_append (first second : List Piece) :
    textOf (first ++ second) = textOf first ++ textOf second := List.flatMap_append

/-- Pieces that stand behind others are written from where those end. -/
theorem tokensAt_append (place : Location) (first second : List Piece) :
    tokensAt place (first ++ second) =
      tokensAt place first ++ tokensAt (place.after (textOf first)) second := by
  induction first generalizing place with
  | nil => rfl
  | cons piece first inductionHypothesis =>
    cases piece with
    | blank => exact inductionHypothesis (place.next ' ')
    | token kind slice value =>
      simp only [List.cons_append, tokensAt, inductionHypothesis, textOf_cons, chars,
        Location.after_append]

/-- No piece is empty. -/
theorem Spelled.chars_ne_nil {piece : Piece} (spelled : piece.Spelled) : piece.chars ≠ [] := by
  cases piece with
  | blank => exact List.cons_ne_nil _ _
  | token kind slice value => exact Lexeme.Spells.ne_nil spelled

/-- A line feed continues no lexeme. -/
theorem continues_lineFeed (piece : Piece) : piece.continues '\n' = false := by
  cases piece with
  | blank => rfl
  | token kind slice value => cases kind <;> simp [continues, Lexeme.continues] <;> decide

/-- Where no comment can begin, the character before does not matter. -/
theorem suits_of_ne_slash {last? : Option Char} {piece : Piece}
    (noSlash : piece.chars.head? ≠ some '/') : piece.Suits last? := by
  cases piece with
  | blank => trivial
  | token kind slice value =>
    intro first
    rw [← List.head?_eq_getElem?] at first
    exact absurd first noSlash

/-- A piece goes with the character before it as far as that character is a colon or not. -/
theorem Suits.of_iff {piece : Piece} {last? other? : Option Char}
    (same : last? = some ':' ↔ other? = some ':') (suits : piece.Suits last?) :
    piece.Suits other? := by
  cases piece with
  | blank => trivial
  | token kind slice value =>
    intro first second
    exact (suits first second).trans (not_congr same)

/-- What stands behind a piece is passed by the next one, or by the text behind them all. -/
theorem Flows.stops {piece : Piece} {rest : List Piece} {more : List Char}
    (flows : Flows piece rest)
    (stops : ∀ c ∈ more.head?, (rest.getLastD piece).continues c = false) :
    ∀ c ∈ (textOf rest ++ more).head?, piece.continues c = false := by
  intro c first
  cases rest with
  | nil => exact stops c first
  | cons following others =>
    obtain ⟨spelled, meets, -⟩ := flows
    obtain ⟨d, tail, split⟩ := List.exists_cons_of_ne_nil spelled.chars_ne_nil
    refine meets.stops c ?_
    rw [textOf_cons, split] at first
    rw [split]
    exact first

/-- In front of a blank the scanner reads what it reads behind it. -/
theorem token?_blank {cursor : Cursor} {more : List Char} (ahead : cursor.rest = ' ' :: more) :
    Scan.token? cursor = Scan.token? (cursor.skip 1) := by
  have behind : (cursor.skip 1).rest = more := by simp [Cursor.skip, ahead]
  have gap : Lexeme.countWhile Lexeme.isGap (' ' :: more) =
      1 + Lexeme.countWhile Lexeme.isGap more := by
    rw [Lexeme.countWhile, List.takeWhile_cons_of_pos (by decide), List.length_cons, Nat.add_comm]
    rfl
  rw [Scan.token?_apply, Scan.token?_apply, ahead, behind, gap, Cursor.skip_skip]

/-- The pieces that flow are read, each as the token it is, in front of a text that does not
continue the last of them. Behind them the scanner goes on as in front of this text. -/
theorem Flows.exists_rounds {before : Piece} {pieces : List Piece} (flows : Flows before pieces)
    {cursor : Cursor} {more : List Char} (ahead : cursor.rest = textOf pieces ++ more)
    (stops : ∀ c ∈ more.head?, (pieces.getLastD before).continues c = false)
    (behind : before.chars.getLast? = some ':' ↔ cursor.last? = some ':') :
    ∃ last, Rounds Scan.token? cursor (tokensAt cursor.location pieces) last ∧
      Scan.token? last = Scan.token? (cursor.skip (textOf pieces).length) := by
  induction pieces generalizing before cursor with
  | nil => exact ⟨cursor, .none cursor, rfl⟩
  | cons piece rest inductionHypothesis =>
    obtain ⟨spelled, meets, later⟩ := flows
    rw [List.getLastD_cons] at stops
    rw [textOf_cons, List.append_assoc] at ahead
    have moved := Cursor.skip_length ahead
    have restAhead : (cursor.skip piece.chars.length).rest = textOf rest ++ more := by rw [moved]
    have beside : piece.chars.getLast? = some ':' ↔
        (cursor.skip piece.chars.length).last? = some ':' := by
      obtain ⟨c, isLast⟩ := Option.ne_none_iff_exists'.mp
        (mt List.getLast?_eq_none_iff.mp spelled.chars_ne_nil)
      rw [Cursor.last?_skip ahead, isLast, Option.some_or]
    obtain ⟨last, run, ended⟩ := inductionHypothesis later restAhead stops beside
    rw [Cursor.skip_skip, ← List.length_append, ← textOf_cons] at ended
    cases piece with
    | blank =>
      have place : (cursor.skip blank.chars.length).location = cursor.location.next ' ' := by
        rw [moved]
        rfl
      rw [place] at run
      exact Rounds.exists_of_round_eq (token?_blank ahead) ⟨last, run, ended⟩
    | token kind slice value =>
      rw [moved] at run
      have suits : (token kind slice value).Suits (cursor.skip 0).last? := meets.suits.of_iff behind
      exact ⟨last, .more (Scan.token?_eq_some_iff.mpr ⟨[], slice, textOf rest ++ more, ahead,
        by simp, spelled, suits, later.stops stops, rfl, Location.offset_after _ _,
        moved.symm⟩) run, ended⟩

/-- A text written in pieces that flow is read as the tokens of these pieces. -/
theorem Flows.tokenize {pieces : List Piece} (flows : Flows feed pieces) :
    tokenize (textOf pieces) =
      .ok (tokensAt Location.start pieces ++
        [Token.finish (Location.start.after (textOf pieces))]) := by
  have whole : (Cursor.ofText (textOf pieces)).rest = textOf pieces ++ [] := by simp [Cursor.ofText]
  obtain ⟨last, run, same⟩ := flows.exists_rounds whole (by simp)
    (by simp [feed, chars, Cursor.last?, Cursor.ofText])
  rw [Cursor.skip_length whole] at same
  have ended := same.trans (Scan.token?_eq_none_iff.mpr ⟨by simp, rfl⟩)
  have read := tokenize_of_rounds run (show _ = roundEnd none _ from ended)
  rw [read]
  rfl

/-- A piece that nothing continues. -/
def Open (piece : Piece) : Prop := ∀ c, piece.continues c = false

/-- A piece that only characters of identifiers continue. -/
def Wordlike (piece : Piece) : Prop :=
  ∀ c, Lexeme.inIdentifier c = false → piece.continues c = false

/-- A piece that a blank does not continue. -/
def Spaced (piece : Piece) : Prop := piece.continues ' ' = false

theorem open_blank : blank.Open := fun _ => rfl

theorem open_feed : feed.Open := fun _ => rfl

theorem open_mark (found : Mark) : (mark found).Open := fun _ => rfl

/-- What nothing continues is continued by no character in particular. -/
theorem Open.wordlike {piece : Piece} (opens : piece.Open) : piece.Wordlike := fun c _ => opens c

/-- A blank continues no word. -/
theorem Wordlike.spaced {piece : Piece} (wordlike : piece.Wordlike) : piece.Spaced :=
  wordlike _ (by decide +kernel)

theorem wordlike_keyword (word : Keyword) : (keyword word).Wordlike := fun _ outside => outside

theorem wordlike_marker (found : Marker) : (marker found).Wordlike := fun _ outside => outside

/-- A piece behind one that nothing continues, if it does not begin like a comment. -/
theorem Open.meets {before piece : Piece} (opens : before.Open)
    (noSlash : piece.chars.head? ≠ some '/') : Meets before piece :=
  ⟨fun c _ => opens c, suits_of_ne_slash noSlash⟩

/-- A keyword is spelled as a word. -/
theorem spelled_keyword (word : Keyword) : (keyword word).Spelled := by
  obtain ⟨c, rest, spelling, begins, noNumber, inside, kind⟩ :
      ∃ c rest, word.spelling.toList = c :: rest ∧ Lexeme.beginsIdentifier c = true ∧
        Text.isDigit c = false ∧ rest.all Lexeme.inIdentifier = true ∧
        Scan.wordKind (String.ofList word.spelling.toList) = .keyword word := by
    cases word <;>
      exact ⟨_, _, rfl, by decide +kernel, by decide +kernel, by decide +kernel, by decide +kernel⟩
  have spelled := Lexeme.Spells.word begins noNumber (List.all_eq_true.mp inside)
  rw [← spelling, kind, String.ofList_toList] at spelled
  exact spelled

/-- What is written between quotes is quoted. -/
theorem quotedAs_escape (value : List Char) :
    Lexeme.QuotedAs (value.flatMap Lexeme.escape) value := by
  have read := Lexeme.quotedBody_escape value []
  obtain ⟨body, rest, split, length, quoted⟩ := Lexeme.quotedAs_of_quotedBody read rfl
  obtain ⟨rfl, -⟩ := List.append_inj split (by rw [length])
  exact quoted

/-- A text between quotes is a quoted text. -/
theorem spelled_quoted (text : Text) : (quoted text).Spelled := .quotedText (quotedAs_escape _)

namespace Flows

variable {before : Piece} {rest : List Piece}

/-- A line feed may stand behind everything. -/
theorem feed (flows : Flows feed rest) : Flows before (.feed :: rest) := by
  refine ⟨Lexeme.Spells.newline, ⟨?_, suits_of_ne_slash (by decide)⟩, flows⟩
  intro c first
  cases first
  exact continues_lineFeed before

/-- A blank may stand behind everything that it does not continue. -/
theorem blank_of_spaced (spaced : before.Spaced) (flows : Flows blank rest) :
    Flows before (.blank :: rest) := by
  refine ⟨trivial, ⟨?_, trivial⟩, flows⟩
  intro c first
  cases first
  exact spaced

/-- A blank may stand behind every word. -/
theorem blank (wordlike : before.Wordlike) (flows : Flows blank rest) :
    Flows before (.blank :: rest) := blank_of_spaced wordlike.spaced flows

/-- A mark may stand behind every word. -/
theorem mark (found : Mark) (wordlike : before.Wordlike) (flows : Flows (.mark found) rest) :
    Flows before (.mark found :: rest) := by
  refine ⟨.mark found, ⟨?_, suits_of_ne_slash (by cases found <;> decide)⟩, flows⟩
  intro c first
  cases first
  exact wordlike _ (by cases found <;> decide +kernel)

/-- A keyword may stand where nothing is continued. -/
theorem keyword (word : Keyword) (opens : before.Open) (flows : Flows (.keyword word) rest) :
    Flows before (.keyword word :: rest) :=
  ⟨spelled_keyword word, opens.meets (by cases word <;> decide), flows⟩

/-- A marker may stand where nothing is continued. -/
theorem marker (found : Marker) (opens : before.Open) (flows : Flows (.marker found) rest) :
    Flows before (.marker found :: rest) :=
  ⟨.marker found, opens.meets (by cases found <;> decide), flows⟩

/-- A quoted text may stand where nothing is continued. -/
theorem quoted (text : Text) (opens : before.Open) (flows : Flows (.quoted text) rest) :
    Flows before (.quoted text :: rest) :=
  ⟨spelled_quoted text, opens.meets (by simp [Piece.quoted, chars, Lexeme.quote]), flows⟩

end Flows

end Piece

end ApiDescription
