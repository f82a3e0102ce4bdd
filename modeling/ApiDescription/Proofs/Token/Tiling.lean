import ApiDescription.Grammar.Property
import ApiDescription.Proofs.Token.Scanning

/-!
# Tokens tile the source

The tokens of a text and the gaps between them make up the text: nothing is lost,
repeated or moved, and what a token says is determined by the characters it was
read from. The values of properties are cut out of the source by the offsets of
tokens, so that a wrong offset would show in them.

One round of the scanner lays one tile, a gap and a token behind it. `Tiles` is
the run of such rounds, and the facts about all tokens of a text are read off it
by induction.
-/

namespace ApiDescription

/-- The characters of a source that a token was read from. -/
def Token.slice (source : List Char) (token : Token) : List Char :=
  sliceOf source token.start.offset token.stop

/-- Two stretches next to each other are one stretch. -/
theorem sliceOf_append_sliceOf (source : List Char) {first middle last : Nat}
    (before : first ≤ middle) (behind : middle ≤ last) :
    sliceOf source first middle ++ sliceOf source middle last = sliceOf source first last := by
  have lengths : last - first = (middle - first) + (last - middle) := by omega
  have offset : middle = first + (middle - first) := by omega
  unfold sliceOf
  rw [lengths, List.take_add, List.drop_drop, ← offset]

/-- The characters ahead of a cursor are the source from its offset on. -/
theorem Cursor.Placed.sliceOf_rest {cursor : Cursor} (placed : cursor.Placed)
    {passed more : List Char} (ahead : cursor.rest = passed ++ more) :
    sliceOf cursor.text cursor.location.offset (cursor.location.offset + passed.length) =
      passed := by
  rw [sliceOf, Cursor.text, List.drop_left' placed.length_before, Nat.add_sub_cancel_left, ahead,
    List.take_left]

/-- The characters that a token was read from stand between its offsets. -/
theorem Cursor.Placed.slice_eq {cursor : Cursor} {token : Token} {gap slice more : List Char}
    (placed : cursor.Placed) (ahead : cursor.rest = gap ++ (slice ++ more))
    (start : token.start = cursor.location.after gap)
    (stop : token.stop = token.start.offset + slice.length) : token.slice cursor.text = slice := by
  have skipped := Cursor.skip_length ahead
  have atToken : (cursor.skip gap.length).location = token.start := by rw [skipped, start]
  have found := (placed.skip gap.length).sliceOf_rest
    (show (cursor.skip gap.length).rest = slice ++ more by rw [skipped])
  rwa [Cursor.text_skip, atToken, ← stop] at found

namespace Lexeme

/-- What the characters of a token stand for. -/
def valueOf (kind : Kind) (slice : List Char) : List Char :=
  match kind with
  | .newline => ['\\', 'n']
  | .comment => if slice[1]? = some '/' then Text.dropEndWhile (· = '\r') slice else slice
  | .quotedText => (quotedBody slice.tail).1
  | _ => slice

/-- The value of a token is determined by its kind and its characters. -/
theorem Spells.value_eq {kind : Kind} {slice : List Char} {value : String}
    (spelled : Spells kind slice value) : value = String.ofList (valueOf kind slice) := by
  cases spelled with
  | quotedText quoted => simp [valueOf, quoted.quotedBody_append []]
  | @word c rest _ _ _ =>
    unfold Scan.wordKind
    cases Keyword.ofSpelling? (String.ofList (c :: rest)) <;> rfl
  | marker found => simp [valueOf, String.ofList_toList]
  | _ => rfl

end Lexeme

/-- Tokens that lie in their order between two offsets of a source, with nothing but gaps
around them, each of them spelled by its characters. -/
inductive Tiles (source : List Char) : (start : Nat) → List Token → (finish : Nat) → Prop
  | none (place : Nat) : Tiles source place [] place
  | more {start finish : Nat} {token : Token} {tokens : List Token}
      (behind : start ≤ token.start.offset)
      (gap : ∀ c ∈ sliceOf source start token.start.offset, Lexeme.isGap c = true)
      (filled : token.start.offset < token.stop) (within : token.stop ≤ source.length)
      (spelled : Lexeme.Spells token.kind (token.slice source) token.value)
      (later : Tiles source token.stop tokens finish) :
      Tiles source start (token :: tokens) finish

/-- A round of the scanner lays one tile. -/
theorem Tiles.of_round {cursor next : Cursor} {token : Token} (placed : cursor.Placed)
    (read : Scan.token? cursor = .ok (some token) next) :
    next.location.offset = token.stop ∧
      Tiles cursor.text cursor.location.offset [token] token.stop := by
  obtain ⟨gap, slice, more, ahead, blank, spelled, -, -, start, stop, rfl⟩ :=
    Scan.token?_eq_some_iff.mp read
  have atToken : (cursor.skip gap.length).location = token.start := by
    rw [Cursor.skip_length ahead, start]
  have rest : (cursor.skip gap.length).rest = slice ++ more := by
    rw [Cursor.skip_length ahead]
  have offset : token.start.offset = cursor.location.offset + gap.length := by
    rw [start, Location.offset_after]
  have cut := placed.slice_eq ahead start stop
  have gapCut : sliceOf cursor.text cursor.location.offset token.start.offset = gap := by
    rw [offset, placed.sliceOf_rest ahead]
  have positive := List.length_pos_iff.mpr spelled.ne_nil
  have bounded : token.stop ≤ cursor.text.length := by
    have before := placed.offset_eq
    simp only [Cursor.text, List.length_append, List.length_reverse, ahead]
    omega
  refine ⟨?_, .more (by omega) (by rwa [gapCut]) (by omega) bounded (by rwa [cut]) (.none _)⟩
  rw [Cursor.skip_length rest, Location.offset_after, atToken, stop]

/-- The rounds of the scanner tile what they pass. -/
theorem Tiles.of_rounds {cursor last : Cursor} {tokens : List Token}
    (run : Rounds Scan.token? cursor tokens last) (placed : cursor.Placed) :
    Tiles cursor.text cursor.location.offset tokens last.location.offset := by
  induction run with
  | none cursor => exact .none _
  | more read _ inductionHypothesis =>
    obtain ⟨nextPlaced, sameText⟩ := Scan.placed_of_rounds (.single read) placed
    obtain ⟨offset, tile⟩ := of_round placed read
    have later := inductionHypothesis nextPlaced
    rw [sameText, offset] at later
    cases tile with
    | more behind gap filled within spelled _ =>
      exact .more behind gap filled within spelled later

namespace Tiles

variable {source : List Char} {start finish : Nat} {tokens : List Token}

/-- Tiles lie inside the stretch they tile. -/
theorem bounded (tiles : Tiles source start tokens finish) :
    start ≤ finish ∧ ∀ token ∈ tokens, start ≤ token.start.offset ∧ token.stop ≤ finish := by
  induction tiles with
  | none place => simp
  | more behind _ filled _ _ _ inductionHypothesis =>
    obtain ⟨forward, inside⟩ := inductionHypothesis
    refine ⟨by omega, ?_⟩
    intro token member
    rcases List.mem_cons.mp member with rfl | member
    · exact ⟨behind, forward⟩
    · have apart := inside token member
      omega

/-- A token starts behind the end of every token before it. -/
theorem ordered (tiles : Tiles source start tokens finish) :
    tokens.Pairwise fun earlier later => earlier.stop ≤ later.start.offset := by
  induction tiles with
  | none place => exact .nil
  | more _ _ _ _ _ later inductionHypothesis =>
    exact .cons (fun token member => (later.bounded.2 token member).1) inductionHypothesis

/-- Every token has characters, and says what they spell. -/
theorem spelled (tiles : Tiles source start tokens finish) :
    ∀ token ∈ tokens, token.start.offset < token.stop ∧ token.stop ≤ source.length ∧
      Lexeme.Spells token.kind (token.slice source) token.value := by
  induction tiles with
  | none place => simp
  | more _ _ filled within spelled _ inductionHypothesis =>
    intro token member
    rcases List.mem_cons.mp member with rfl | member
    · exact ⟨filled, within, spelled⟩
    · exact inductionHypothesis token member

/-- Tokens tile a stretch, and those behind them tile what they leave. -/
theorem exists_of_append {others : List Token}
    (tiles : Tiles source start (tokens ++ others) finish) :
    ∃ middle, Tiles source start tokens middle ∧ Tiles source middle others finish := by
  induction tokens generalizing start with
  | nil => exact ⟨start, .none start, tiles⟩
  | cons token tokens inductionHypothesis =>
    cases tiles with
    | more behind gap filled within spelled later =>
      obtain ⟨middle, inFront, others⟩ := inductionHypothesis later
      exact ⟨middle, .more behind gap filled within spelled inFront, others⟩

/-- The stretch that tokens tile may begin with the first of them. -/
theorem from_start {token : Token} (tiles : Tiles source start (token :: tokens) finish) :
    Tiles source token.start.offset (token :: tokens) finish := by
  cases tiles with
  | more _ _ filled within spelled later =>
    exact .more (Nat.le_refl _) (by simp [sliceOf]) filled within spelled later

/-- The stretch that tokens tile ends with the last of them. -/
theorem stop_getLastD {token : Token} (tiles : Tiles source start (token :: tokens) finish) :
    (tokens.getLastD token).stop = finish := by
  induction tokens generalizing start token with
  | nil =>
    cases tiles with
    | more _ _ _ _ _ later =>
      cases later
      rfl
  | cons next tokens inductionHypothesis =>
    cases tiles with
    | more _ _ _ _ _ later =>
      rw [List.getLastD_cons]
      exact inductionHypothesis later

/-- If no token holds a line feed the stretch is part of a line. -/
theorem not_mem_lineFeed (tiles : Tiles source start tokens finish)
    (inLine : ∀ token ∈ tokens, '\n' ∉ token.slice source) :
    '\n' ∉ sliceOf source start finish := by
  induction tiles with
  | none place => simp [sliceOf]
  | @more start finish token tokens behind gap filled _ _ later inductionHypothesis =>
    rw [List.forall_mem_cons] at inLine
    have forward := later.bounded.1
    have inGap : '\n' ∉ sliceOf source start token.start.offset := fun found =>
      absurd (gap _ found) (by decide)
    rw [← sliceOf_append_sliceOf source behind (by omega),
      ← sliceOf_append_sliceOf source (by omega : token.start.offset ≤ token.stop) forward,
      List.mem_append, List.mem_append, not_or, not_or]
    exact ⟨inGap, inLine.1, inductionHypothesis inLine.2⟩

/-- A character outside all tokens belongs to a gap. -/
theorem blank_of_outside (tiles : Tiles source start tokens finish) {index : Nat} {c : Char}
    (found : source[index]? = some c) (behind : start ≤ index) (before : index < finish)
    (outside : ∀ token ∈ tokens, ¬(token.start.offset ≤ index ∧ index < token.stop)) :
    Lexeme.isGap c = true := by
  induction tiles with
  | none place => omega
  | @more start finish token tokens _ gap _ _ _ _ inductionHypothesis =>
    by_cases inGap : index < token.start.offset
    · apply gap
      rw [sliceOf, List.mem_iff_getElem?]
      refine ⟨index - start, ?_⟩
      rw [List.getElem?_take_of_lt (by omega), List.getElem?_drop,
        Nat.add_sub_cancel' behind, found]
    · have notHere := outside token (by simp)
      exact inductionHypothesis (by omega) before fun other member =>
        outside other (List.mem_cons_of_mem _ member)

/-- The stretch is made of a gap and a token in turn. -/
theorem assembled (tiles : Tiles source start tokens finish) :
    ∃ gaps : List (List Char), gaps.length = tokens.length ∧
      (∀ gap ∈ gaps, ∀ c ∈ gap, Lexeme.isGap c = true) ∧
      sliceOf source start finish =
        (gaps.zip (tokens.map (·.slice source))).flatMap fun tile => tile.1 ++ tile.2 := by
  induction tiles with
  | none place => exact ⟨[], rfl, by simp, by simp [sliceOf]⟩
  | @more start finish token tokens behind gap filled _ _ later inductionHypothesis =>
    obtain ⟨gaps, length, blank, whole⟩ := inductionHypothesis
    have forward := later.bounded.1
    refine ⟨sliceOf source start token.start.offset :: gaps, by simp [length], ?_, ?_⟩
    · intro other member
      rcases List.mem_cons.mp member with rfl | member
      · exact gap
      · exact blank other member
    · rw [List.map_cons, List.zip_cons_cons, List.flatMap_cons, ← whole, Token.slice,
        sliceOf_append_sliceOf source behind (by omega),
        sliceOf_append_sliceOf source (by omega) forward]

end Tiles

/-- What the tokens of a source are: they end with the only end of text, every other token
has characters of its own, they do not overlap and stand in the order of the source, and
what is outside them separates tokens. -/
structure Tiling (source : List Char) (tokens : List Token) : Prop where
  /-- The end of the text stands last and nowhere else. -/
  ended : ∃ others finish, tokens = others ++ [finish] ∧ finish.kind = .endOfText ∧
    finish.start.offset = source.length ∧ finish.stop = source.length ∧
    ∀ token ∈ others, token.kind ≠ .endOfText
  /-- Every other token takes up some of the source. -/
  filled : ∀ token ∈ tokens, token.kind ≠ .endOfText →
    token.start.offset < token.stop ∧ token.stop ≤ source.length
  /-- No token starts before the end of an earlier one. -/
  ordered : tokens.Pairwise fun earlier later => earlier.stop ≤ later.start.offset
  /-- Characters outside all tokens separate tokens. -/
  gaps : ∀ index c, source[index]? = some c →
    (∀ token ∈ tokens, ¬(token.start.offset ≤ index ∧ index < token.stop)) →
    c ∈ [' ', '\t', '\r', '\x0c', '\ufeff']
  /-- The source is a gap and a token in turn. -/
  assembled : ∃ gaps : List (List Char), gaps.length = tokens.length ∧
    (∀ gap ∈ gaps, ∀ c ∈ gap, c ∈ [' ', '\t', '\r', '\x0c', '\ufeff']) ∧
    source = (gaps.zip (tokens.map (·.slice source))).flatMap fun tile => tile.1 ++ tile.2
  /-- Every token is spelled by its characters as the lexical grammar has it. -/
  spelled : ∀ token ∈ tokens, token.kind ≠ .endOfText →
    Lexeme.Spells token.kind (token.slice source) token.value
  /-- The value of a token follows from its characters. -/
  valued : ∀ token ∈ tokens, token.kind ≠ .endOfText →
    token.value = String.ofList (Lexeme.valueOf token.kind (token.slice source))

/-- The end of the text is not spelled by any characters. -/
theorem Lexeme.Spells.ne_endOfText {kind : Kind} {slice : List Char} {value : String}
    (spelled : Spells kind slice value) : kind ≠ .endOfText := by
  cases spelled with
  | @word c rest _ _ _ =>
    unfold Scan.wordKind
    cases Keyword.ofSpelling? (String.ofList (c :: rest)) <;> simp
  | _ => simp

/-- What reading a text as a whole answers: the tokens of a run that passes the text up to a
last gap, and the end of the text. -/
theorem exists_tiles_of_tokenize {source : List Char} {tokens : List Token}
    (read : tokenize source = .ok tokens) :
    ∃ others place, tokens = others ++ [Token.finish place] ∧
      place.offset = source.length ∧
      ∃ last, Tiles source 0 others last ∧ last ≤ source.length ∧
        ∀ c ∈ sliceOf source last source.length, Lexeme.isGap c = true := by
  obtain ⟨others, last, run, blank, rfl⟩ := exists_rounds_of_tokenize read
  have tiles := Tiles.of_rounds run (Cursor.placed_ofText source)
  obtain ⟨placed, sameText⟩ := Scan.placed_of_rounds run (Cursor.placed_ofText source)
  have sourceText : (Cursor.ofText source).text = source := by simp [Cursor.text, Cursor.ofText]
  rw [sourceText] at sameText tiles
  have length : last.location.offset + last.rest.length = source.length := by
    rw [placed.offset_eq, ← sameText, Cursor.text, List.length_append, List.length_reverse]
  have restCut := placed.sliceOf_rest (List.append_nil last.rest).symm
  rw [sameText, length] at restCut
  refine ⟨others, _, rfl, ?_, _, tiles, by omega, by rwa [restCut]⟩
  rw [Cursor.skip_length (List.append_nil last.rest).symm, Location.offset_after, length]

/-- The tokens of a source tile it. -/
theorem tokenize_tiles {source : List Char} {tokens : List Token}
    (read : tokenize source = .ok tokens) : Tiling source tokens := by
  obtain ⟨others, place, rfl, atEnd, last, tiles, bounded, blank⟩ :=
    exists_tiles_of_tokenize read
  have spelled := tiles.spelled
  have finishKind : (Token.finish place).kind = .endOfText := rfl
  have finishStart : (Token.finish place).start.offset = source.length := atEnd
  have ofOthers {token : Token} (member : token ∈ others ++ [Token.finish place])
      (goesOn : token.kind ≠ .endOfText) : token ∈ others := by
    rcases List.mem_append.mp member with member | member
    · exact member
    · rw [List.mem_singleton.mp member] at goesOn
      exact absurd finishKind goesOn
  constructor
  case ended =>
    exact ⟨others, Token.finish place, rfl, rfl, atEnd, atEnd,
      fun token member => (spelled token member).2.2.ne_endOfText⟩
  case filled =>
    intro token member goesOn
    obtain ⟨filled, within, -⟩ := spelled token (ofOthers member goesOn)
    exact ⟨filled, within⟩
  case ordered =>
    rw [List.pairwise_append]
    refine ⟨tiles.ordered, List.pairwise_singleton _ _, ?_⟩
    intro token member finish isFinish
    rw [List.mem_singleton.mp isFinish, finishStart]
    exact (spelled token member).2.1
  case gaps =>
    intro index c found outside
    rw [← Lexeme.isGap_iff]
    by_cases inside : index < last
    · exact tiles.blank_of_outside found (Nat.zero_le _) inside fun token member =>
        outside token (List.mem_append_left _ member)
    · apply blank
      have before := (List.getElem?_eq_some_iff.mp found).1
      rw [sliceOf, List.mem_iff_getElem?]
      refine ⟨index - last, ?_⟩
      rw [List.getElem?_take_of_lt (by omega), List.getElem?_drop,
        Nat.add_sub_cancel' (by omega), found]
  case assembled =>
    obtain ⟨gaps, length, allBlank, whole⟩ := tiles.assembled
    refine ⟨gaps ++ [sliceOf source last source.length], by simp [length], ?_, ?_⟩
    · intro gap member c inGap
      rw [← Lexeme.isGap_iff]
      rcases List.mem_append.mp member with member | member
      · exact allBlank gap member c inGap
      · rw [List.mem_singleton.mp member] at inGap
        exact blank c inGap
    · have sameLength : gaps.length = (others.map (·.slice source)).length := by simp [length]
      have finishSlice : (Token.finish place).slice source = [] := by
        simp [Token.slice, sliceOf, Token.finish]
      have everything : sliceOf source 0 source.length = source := by simp [sliceOf]
      rw [List.map_append, List.zip_append sameLength, List.flatMap_append, ← whole,
        List.map_singleton, List.zip_cons_cons, List.zip_nil_left, List.flatMap_singleton,
        finishSlice, List.append_nil, sliceOf_append_sliceOf source (Nat.zero_le _) bounded,
        everything]
  case spelled =>
    intro token member goesOn
    exact (spelled token (ofOthers member goesOn)).2.2
  case valued =>
    intro token member goesOn
    exact (spelled token (ofOthers member goesOn)).2.2.value_eq

/-- A line of a property block with an escape, a comment and a carriage return. -/
theorem tokenize_tiles_propertyLine :
    let source := "\tk: \"a\\n\\q\" // b\r\n".toList
    let tokens : List Token :=
      [⟨.identifier, "k", ⟨1, 1, 2⟩, 2⟩, ⟨.mark .colon, ":", ⟨2, 1, 3⟩, 3⟩,
       ⟨.quotedText, "a\n\\q", ⟨4, 1, 5⟩, 11⟩, ⟨.comment, "// b", ⟨12, 1, 13⟩, 17⟩,
       ⟨.newline, "\\n", ⟨17, 1, 18⟩, 18⟩, ⟨.endOfText, "", ⟨18, 2, 1⟩, 18⟩]
    tokenize source = .ok tokens ∧ Tiling source tokens :=
  have read := by decide +kernel
  ⟨read, tokenize_tiles read⟩
end ApiDescription
