import ApiDescription.Proofs.Token.Tiling
import ApiDescription.Token.Scanner
import Mathlib.Data.List.Induction

/-!
# Exact places

A cursor counts characters, lines and columns while it moves. Whatever a scanner is
told to do, in whatever order and also behind a fault, it stays inside its text, and
its counts are those of the characters it has passed: `Scanner.exact_runAll`. So are
the places of all tokens it has read.

A fault is reported where the lexeme begins that cannot be read, wherever reading
stopped. Between the cursor and that place there are only tokens that were read, and
gaps.
-/

namespace ApiDescription

namespace Location

/-- The place of an offset in a text: the line feeds before it give the line, and the
characters behind the last of them the column. -/
def ofOffset (text : List Char) (offset : Nat) : Location :=
  let passed := text.take offset
  ⟨offset, passed.count '\n' + 1, (passed.reverse.takeWhile (· ≠ '\n')).length + 1⟩

/-- The place behind a whole text. -/
theorem ofOffset_length (text : List Char) :
    ofOffset text text.length =
      ⟨text.length, text.count '\n' + 1, (text.reverse.takeWhile (· ≠ '\n')).length + 1⟩ := by
  simp only [ofOffset, List.take_length]

/-- Counting one character after the other gives the place behind all of them. -/
theorem start_after (passed : List Char) :
    start.after passed = ofOffset passed passed.length := by
  induction passed using List.reverseRecOn with
  | nil => rfl
  | append_singleton passed c inductionHypothesis =>
    rw [after_append, inductionHypothesis, after_cons, after_nil, ofOffset_length,
      ofOffset_length]
    by_cases feed : c = '\n'
    · simp [next, feed]
    · simp [next, feed]

/-- A place depends only on what precedes it. -/
theorem ofOffset_append (passed more : List Char) :
    ofOffset (passed ++ more) passed.length = ofOffset passed passed.length := by
  simp [ofOffset]

end Location

namespace Cursor

variable {cursor : Cursor}

/-- A well placed cursor is at the place of its offset. -/
theorem Placed.location_eq (placed : cursor.Placed) :
    cursor.location = .ofOffset cursor.text cursor.location.offset := by
  rw [← placed.length_before, text, Location.ofOffset_append, ← Location.start_after]
  exact placed

/-- The characters ahead of a well placed cursor are those behind its offset. -/
theorem Placed.rest_eq (placed : cursor.Placed) :
    cursor.rest = cursor.text.drop cursor.location.offset := by
  rw [text, List.drop_left' placed.length_before]

/-- A well placed cursor is inside its text. -/
theorem Placed.offset_le (placed : cursor.Placed) :
    cursor.location.offset ≤ cursor.text.length := by
  rw [← placed.length_before, text, List.length_append]
  exact Nat.le_add_right _ _

end Cursor

namespace Lexeme

/-- A text that begins with a lexeme that cannot be read, and why it cannot. -/
inductive Broken : SyntaxError.Cause → List Char → Prop
  | comment {more : List Char} (noEnd : commentEnd? more = none) :
      Broken .unterminatedComment ('/' :: '*' :: more)
  | quotedText {more : List Char} (noQuote : (quotedBody more).2.2.head? ≠ some '"') :
      Broken .unterminatedText ('"' :: more)
  | rawText {more : List Char} (noBacktick : '\x60' ∉ more) :
      Broken .unterminatedRawText ('\x60' :: more)
  | marker {more : List Char}
      (unknown : Marker.ofSpelling? ("@" ++ String.ofList (more.takeWhile inIdentifier)) = none) :
      Broken (.unknownMarker ("@" ++ String.ofList (more.takeWhile inIdentifier))) ('@' :: more)
  | character {c : Char} {more : List Char} (noDigit : Text.isDigit c = false)
      (noWord : beginsIdentifier c = false) (noMark : Mark.ofChar? c = none)
      (noOpening : c ∉ ['\n', '/', '"', '\x60', '@']) :
      Broken (.unexpectedCharacter c) (c :: more)

/-- If no backtick stands behind all characters that are none, there is no backtick. -/
theorem not_mem_of_head?_drop {text : List Char} {mark : Char}
    (unclosed : (text.drop (countWhile (· ≠ mark) text)).head? ≠ some mark) : mark ∉ text := by
  obtain ⟨more, whole, inside, ended⟩ := exists_takeWhile_append (· ≠ mark) text
  have behind : text.drop (countWhile (· ≠ mark) text) = more := by
    rw [countWhile]
    exact List.append_cancel_left
      ((List.prefix_iff_eq_append.mp (List.takeWhile_prefix _)).trans whole)
  rw [behind] at unclosed
  intro member
  rw [whole] at member
  rcases List.mem_append.mp member with before | member
  · simpa using inside mark before
  · cases more with
    | nil => simp at member
    | cons first more =>
      have closes : first = mark := by simpa using ended first rfl
      exact unclosed (by rw [closes]; rfl)

/-- What a fault says of a lexeme is so. -/
theorem broken_of_read {last? : Option Char} {c : Char} {following : List Char}
    {cause : SyntaxError.Cause} {count : Nat}
    (failed : read last? c following = .error (cause, count)) :
    Broken cause (c :: following) := by
  cases opening last? c following with
  | newline => cases failed
  | lineComment noScheme =>
    rw [read_lineComment noScheme] at failed
    cases failed
  | blockComment =>
    rw [read_blockComment] at failed
    split at failed
    · cases failed
    · next noEnd =>
      cases failed
      exact .comment noEnd
  | path noLine noBlock =>
    rw [read_path noLine noBlock] at failed
    cases failed
  | quotedText =>
    rw [read_quotedText] at failed
    split at failed
    · cases failed
    · next noQuote =>
      cases failed
      exact .quotedText noQuote
  | rawText =>
    rw [read_rawText] at failed
    split at failed
    · cases failed
    · next unclosed =>
      cases failed
      exact .rawText (not_mem_of_head?_drop unclosed)
  | number digit =>
    rw [read_number digit] at failed
    cases failed
  | word begins noNumber =>
    rw [read_word begins noNumber] at failed
    cases failed
  | marker =>
    rw [read_marker] at failed
    split at failed
    · cases failed
    · next unknown =>
      cases failed
      exact .marker unknown
  | single noNumber noWord noOpening =>
    rw [read_single noNumber noWord noOpening] at failed
    split at failed
    · cases failed
    · next noMark =>
      cases failed
      exact .character noNumber noWord noMark noOpening

end Lexeme

namespace Scan

variable {α β : Type}

/-- A scan that moves over some characters and reports a fault where it started. -/
def Moves (action : Scan α) : Prop :=
  ∀ cursor, (∃ value count, action cursor = .ok value (cursor.skip count)) ∨
    ∃ cause count, action cursor = .error (.located cause cursor.location) (cursor.skip count)

/-- What is answered about a movement does not change it. -/
theorem Moves.map {action : Scan α} (moves : Moves action) (f : α → β) :
    Moves (f <$> action) := by
  intro cursor
  rcases moves cursor with ⟨value, count, read⟩ | ⟨cause, count, failed⟩
  · exact .inl ⟨f value, count, by rw [map_eq_pure_bind, bind_apply, read]; rfl⟩
  · exact .inr ⟨cause, count, by rw [map_eq_pure_bind, bind_apply, failed]⟩

/-- A movement may be answered by something else than what was read. -/
theorem Moves.answering {action : Scan α} (moves : Moves action) (answer : β) :
    Moves (action *> pure answer) := by
  intro cursor
  rcases moves cursor with ⟨value, count, read⟩ | ⟨cause, count, failed⟩
  · exact .inl ⟨answer, count, by rw [seqRight_eq_bind, bind_apply, read]; rfl⟩
  · exact .inr ⟨cause, count, by rw [seqRight_eq_bind, bind_apply, failed]⟩

theorem moves_take (count : Nat) : Moves (take count) := fun _ => .inl ⟨_, count, rfl⟩

theorem moves_takeWhile (p : Char → Bool) : Moves (takeWhile p) := fun _ => .inl ⟨_, _, rfl⟩

theorem moves_advance : Moves advance := fun _ => .inl ⟨(), 1, rfl⟩

theorem moves_gap : Moves gap := fun _ => .inl ⟨(), _, rfl⟩

theorem moves_afterScheme : Moves afterScheme :=
  fun cursor => .inl ⟨_, 0, by rw [cursor.skip_zero]; rfl⟩

theorem moves_lineComment : Moves lineComment := fun _ => .inl ⟨_, _, rfl⟩

theorem moves_blockComment : Moves blockComment := by
  intro cursor
  unfold blockComment
  cases Lexeme.commentEnd? (cursor.rest.drop 2) with
  | none => exact .inr ⟨_, _, rfl⟩
  | some count => exact moves_take _ cursor

theorem moves_quotedText : Moves quotedText := by
  intro cursor
  unfold quotedText
  dsimp only
  split
  · exact .inl ⟨_, _, rfl⟩
  · exact .inr ⟨_, _, rfl⟩

theorem moves_rawText : Moves rawText := by
  intro cursor
  unfold rawText
  dsimp only
  split
  · exact moves_take _ cursor
  · exact .inr ⟨_, _, rfl⟩

/-- A fault is met behind a gap, at a lexeme that cannot be read. -/
theorem exists_broken_of_token?_error {cursor next : Cursor} {fault : SyntaxError}
    (failed : token? cursor = .error fault next) :
    ∃ gap cause count, (∀ c ∈ gap, Lexeme.isGap c = true) ∧
      cursor.rest = gap ++ (cursor.skip gap.length).rest ∧
      Lexeme.Broken cause (cursor.skip gap.length).rest ∧
      fault = .located cause (cursor.skip gap.length).location ∧
      next = (cursor.skip gap.length).skip count := by
  obtain ⟨behind, whole, blank, -⟩ := Lexeme.exists_takeWhile_append Lexeme.isGap cursor.rest
  rw [token?_apply, Lexeme.countWhile] at failed
  generalize cursor.rest.takeWhile Lexeme.isGap = gap at whole blank failed
  have rest : (cursor.skip gap.length).rest = behind := by rw [Cursor.skip_length whole]
  cases behind with
  | nil =>
    simp only [rest] at failed
    cases failed
  | cons c following =>
    simp only [rest] at failed
    cases read : Lexeme.read (cursor.skip gap.length).last? c following with
    | ok found =>
      simp only [read] at failed
      cases failed
    | error found =>
      simp only [read] at failed
      cases failed
      exact ⟨gap, found.1, found.2, blank, by rw [rest, whole], rest ▸ Lexeme.broken_of_read read,
        rfl, rfl⟩

/-- The tokens of a run are at the places of their offsets. -/
theorem location_of_rounds {cursor last : Cursor} {tokens : List Token}
    (run : Rounds token? cursor tokens last) (placed : cursor.Placed) :
    ∀ token ∈ tokens, token.start.offset ≤ cursor.text.length ∧
      token.start = .ofOffset cursor.text token.start.offset := by
  induction run with
  | none cursor => simp
  | @more cursor _ _ token _ read _ inductionHypothesis =>
    obtain ⟨nextPlaced, sameText⟩ := placed_of_rounds (.single read) placed
    obtain ⟨gap, slice, more, ahead, -, -, -, -, start, -, -⟩ := token?_eq_some_iff.mp read
    have atToken := placed.skip gap.length
    have location : (cursor.skip gap.length).location = token.start := by
      rw [Cursor.skip_length ahead, start]
    intro token member
    rcases List.mem_cons.mp member with rfl | member
    · have inside := atToken.offset_le
      have place := atToken.location_eq
      rw [location, Cursor.text_skip] at inside place
      exact ⟨inside, place⟩
    · rw [← sameText]
      exact inductionHypothesis nextPlaced token member

end Scan

namespace Scanner

variable {text : List Char} {scanner : Scanner}

/-- A scanner in a text whose counts are exact: its cursor is inside the text and at the place
of its offset, and every token it has read is in the text and at the place of its own. -/
structure Exact (text : List Char) (scanner : Scanner) : Prop where
  within : scanner.cursor.location.offset ≤ text.length
  rest : scanner.cursor.rest = text.drop scanner.cursor.location.offset
  place : scanner.cursor.location = .ofOffset text scanner.cursor.location.offset
  tokens : ∀ token ∈ scanner.tokens, token.start.offset ≤ text.length ∧
    token.start = .ofOffset text token.start.offset

/-- A lexeme that cannot be read, and what stands in front of it: from an offset of the text on
there are tokens that were read, and gaps, up to the place where the lexeme begins. -/
structure Breaks (text : List Char) (start : Nat) (read : List Token)
    (cause : SyntaxError.Cause) (place : Nat) : Prop where
  led : ∃ last, Tiles text start read last ∧ last ≤ place ∧
    ∀ c ∈ sliceOf text last place, Lexeme.isGap c = true
  broken : Lexeme.Broken cause (text.drop place)

/-- What every command keeps: the text, and that the cursor counts what it has passed. -/
structure Kept (text : List Char) (scanner : Scanner) : Prop where
  same : scanner.cursor.text = text
  placed : scanner.cursor.Placed
  tokens : ∀ token ∈ scanner.tokens, token.start.offset ≤ text.length ∧
    token.start = .ofOffset text token.start.offset

/-- The counts of a scanner that keeps its text are exact. -/
theorem Kept.exact (kept : scanner.Kept text) : scanner.Exact text := by
  obtain ⟨rfl, placed, tokens⟩ := kept
  exact ⟨placed.offset_le, placed.rest_eq, placed.location_eq, tokens⟩

/-- The start of a text is kept. -/
theorem kept_ofText (text : List Char) : (ofText text).Kept text :=
  ⟨rfl, Cursor.placed_ofText text, by simp [ofText]⟩

/-- A scan that moves the cursor keeps the text, and meets a fault only where it started. -/
theorem Kept.scan {action : Scan Answer} (moves : Scan.Moves action) (kept : scanner.Kept text) :
    (scanner.scan action).2.Kept text ∧
      ∀ fault, (scanner.scan action).1 = .error fault →
        ∃ cause, fault = .located cause scanner.cursor.location := by
  obtain ⟨rfl, placed, tokens⟩ := kept
  rw [Scanner.scan]
  rcases moves scanner.cursor with ⟨value, count, read⟩ | ⟨cause, count, failed⟩
  · rw [read]
    exact ⟨⟨Cursor.text_skip _ _, placed.skip count, tokens⟩, fun fault failed => nomatch failed⟩
  · rw [failed]
    refine ⟨⟨Cursor.text_skip _ _, placed.skip count, tokens⟩, fun fault failed => ?_⟩
    cases failed
    exact ⟨cause, rfl⟩

/-- Reading on keeps the text and the tokens read before. A fault is located at a lexeme that
cannot be read, behind tokens that were. -/
theorem Kept.readAll (kept : scanner.Kept text) :
    scanner.readAll.2.Kept text ∧
      ∀ fault, scanner.readAll.1 = .error fault →
        ∃ read cause place, scanner.readAll.2.tokens = scanner.tokens ++ read ∧
          fault = .located cause (.ofOffset text place) ∧
          Breaks text scanner.cursor.location.offset read cause place := by
  obtain ⟨rfl, placed, tokens⟩ := kept
  obtain ⟨last, run, ended⟩ := exists_rounds_collect Scan.shrinks_token?.within
    (show (fun _ => True) scanner.cursor from trivial)
  obtain ⟨lastPlaced, sameText⟩ := Scan.placed_of_rounds run placed
  have located := Scan.location_of_rounds run placed
  have tiles := Tiles.of_rounds run placed
  rw [Scanner.readAll, Scan.tokens]
  generalize collect Scan.token? scanner.cursor = series at run ended located tiles
  obtain ⟨items, fault, state⟩ := series
  have together : ∀ token ∈ scanner.tokens ++ items,
      token.start.offset ≤ scanner.cursor.text.length ∧
        token.start = .ofOffset scanner.cursor.text token.start.offset := by
    intro token member
    rcases List.mem_append.mp member with member | member
    · exact tokens token member
    · exact located token member
  cases fault with
  | none =>
    obtain ⟨-, rfl⟩ := Scan.token?_eq_none_iff.mp ended
    have finishPlaced := lastPlaced.skip last.rest.length
    have finishText : (last.skip last.rest.length).text = scanner.cursor.text :=
      (Cursor.text_skip _ _).trans sameText
    refine ⟨⟨finishText, finishPlaced, fun token member => ?_⟩, fun fault failed => nomatch failed⟩
    rcases List.mem_append.mp member with member | member
    · exact together token member
    · rw [List.mem_singleton.mp member, ← finishText]
      exact ⟨finishPlaced.offset_le, finishPlaced.location_eq⟩
  | some fault =>
    obtain ⟨gap, cause, count, blank, ahead, broken, rfl, rfl⟩ :=
      Scan.exists_broken_of_token?_error ended
    have breakPlaced := lastPlaced.skip gap.length
    have breakText : (last.skip gap.length).text = scanner.cursor.text :=
      (Cursor.text_skip _ _).trans sameText
    refine ⟨⟨(Cursor.text_skip _ _).trans breakText, breakPlaced.skip count, together⟩, ?_⟩
    intro fault failed
    cases failed
    have place : (last.skip gap.length).location.offset = last.location.offset + gap.length := by
      rw [Cursor.skip_length ahead, Location.offset_after]
    have passed : sliceOf scanner.cursor.text last.location.offset
        (last.skip gap.length).location.offset = gap := by
      rw [← sameText, place]
      exact lastPlaced.sliceOf_rest ahead
    refine ⟨items, cause, (last.skip gap.length).location.offset, rfl, ?_, ⟨_, tiles, ?_, ?_⟩, ?_⟩
    · rw [← breakText, ← breakPlaced.location_eq]
    · omega
    · rwa [passed]
    · rwa [← breakText, ← breakPlaced.rest_eq]

/-- What is reported fails exactly as the outcome does. -/
theorem report_eq_error_iff {outcome : Except SyntaxError Answer × Scanner} {fault : Fault} :
    (report outcome).1 = .error fault ↔
      ∃ error, outcome.1 = .error error ∧ fault = .unreadable error := by
  obtain ⟨answer | answer, next⟩ := outcome <;> simp [report, Except.mapError, eq_comm]

/-- A look at a character fails exactly if it goes further before the start than the text is
long. -/
theorem peek_eq_error_iff {distance : Int} {fault : Fault} (kept : scanner.Kept text) :
    scanner.peek distance = .error fault ↔
      fault = .outOfText ∧ (scanner.cursor.location.offset : Int) + distance < -text.length := by
  rw [peek, kept.same]
  generalize (scanner.cursor.location.offset : Int) + distance = position
  cases position with
  | ofNat index =>
    simp
  | negSucc index =>
    have place : Int.negSucc index = -((index : Int) + 1) := Int.negSucc_eq index
    cases found : text.reverse[index]? with
    | some c =>
      have inside : index < text.reverse.length := (List.getElem?_eq_some_iff.mp found).1
      rw [List.length_reverse] at inside
      simp only [found, reduceCtorEq, false_iff, not_and]
      omega
    | none =>
      have outside : text.reverse.length ≤ index := List.getElem?_eq_none_iff.mp found
      rw [List.length_reverse] at outside
      have before : Int.negSucc index < -(text.length : Int) := by omega
      simp [found, before, eq_comm]

/-- What a command that fails in a scanner says of the text: characters that cannot be read are
located where the lexeme begins, the one it was told to read or, if it reads all tokens, the first
that is none; and a look out of the text goes further before its start than it is long. -/
structure Explained (text : List Char) (scanner : Scanner) (command : Command) : Prop where
  unreadable : ∀ fault, (scanner.run command).1 = .error (.unreadable fault) →
    ∃ cause place, fault = .located cause (.ofOffset text place) ∧
      (if command.readsAll then
        ∃ read, (scanner.run command).2.tokens = scanner.tokens ++ read ∧
          Breaks text scanner.cursor.location.offset read cause place
      else place = scanner.cursor.location.offset)
  outOfText : (scanner.run command).1 = .error .outOfText ↔
    ∃ distance, command = .peek distance ∧
      (scanner.cursor.location.offset : Int) + distance < -text.length

/-- Whatever a scan of the cursor is told to do, it keeps the text, and a failure is explained. -/
theorem Kept.runScan {command : Command} {action : Scan Answer} (kept : scanner.Kept text)
    (moves : Scan.Moves action) (runs : scanner.run command = report (scanner.scan action))
    (single : command.readsAll = false) (noPeek : ∀ distance, command ≠ .peek distance) :
    (scanner.run command).2.Kept text ∧ scanner.Explained text command := by
  rw [runs]
  refine ⟨(kept.scan moves).1, ⟨fun fault failed => ?_, ?_⟩⟩
  · rw [runs, report_eq_error_iff] at failed
    obtain ⟨error, failed, same⟩ := failed
    cases same
    obtain ⟨cause, rfl⟩ := (kept.scan moves).2 _ failed
    exact ⟨cause, _, by rw [← kept.exact.place], by simp [single]⟩
  · rw [runs, report_eq_error_iff]
    simp [noPeek]

/-- Whatever a command does, it keeps the text, and a failure is explained. -/
theorem Kept.run (kept : scanner.Kept text) (command : Command) :
    (scanner.run command).2.Kept text ∧ scanner.Explained text command := by
  cases command with
  | current =>
    have answers : (scanner.run .current).1 = .ok (.character scanner.cursor.current?) := rfl
    exact ⟨kept, ⟨by simp [answers], by simp [answers]⟩⟩
  | peek distance =>
    have fails (fault : Fault) := @peek_eq_error_iff text scanner distance fault kept
    refine ⟨kept, ⟨fun fault failed => ?_, ?_⟩⟩
    · exact nomatch ((fails _).mp failed).1
    · exact (fails .outOfText).trans (by simp)
  | advance => exact kept.runScan (Scan.moves_advance.answering _) rfl rfl nofun
  | gap => exact kept.runScan (Scan.moves_gap.answering _) rfl rfl nofun
  | afterScheme => exact kept.runScan (Scan.moves_afterScheme.map _) rfl rfl nofun
  | lineComment => exact kept.runScan (Scan.moves_lineComment.map _) rfl rfl nofun
  | blockComment => exact kept.runScan (Scan.moves_blockComment.map _) rfl rfl nofun
  | quotedText => exact kept.runScan (Scan.moves_quotedText.map _) rfl rfl nofun
  | rawText => exact kept.runScan (Scan.moves_rawText.map _) rfl rfl nofun
  | readWhile holds => exact kept.runScan ((Scan.moves_takeWhile holds).map _) rfl rfl nofun
  | path | number | identifier => exact kept.runScan ((Scan.moves_takeWhile _).map _) rfl rfl nofun
  | tokenize =>
    refine ⟨kept.readAll.1, ⟨fun fault failed => ?_, ?_⟩⟩
    · obtain ⟨error, failed, same⟩ := report_eq_error_iff.mp failed
      cases same
      obtain ⟨read, cause, place, tokens, located, breaks⟩ := kept.readAll.2 _ failed
      exact ⟨cause, place, located, read, tokens, breaks⟩
    · refine report_eq_error_iff.trans ?_
      simp

/-- A list of commands keeps the text. -/
theorem Kept.runAll (kept : scanner.Kept text) (commands : List Command) :
    (scanner.runAll commands).Kept text := by
  induction commands generalizing scanner with
  | nil => exact kept
  | cons command commands inductionHypothesis => exact inductionHypothesis (kept.run command).1

/-- After any commands in any order, failed ones included, the counts of a scanner are exact, and
so are the places of its tokens. A command that fails then reports its fault where a lexeme
begins: the lexeme it was told to read, or, if it reads all tokens, the first that is none. Only a
look out of the text fails otherwise. -/
theorem exact_runAll (text : List Char) (commands : List Command) :
    let scanner := (ofText text).runAll commands
    scanner.Exact text ∧ ∀ command, scanner.Explained text command := by
  have kept := (kept_ofText text).runAll commands
  exact ⟨kept.exact, fun command => (kept.run command).2⟩

/-- A quoted text without an end is given up in the second line. The next fault is located at the
at sign in the third line, behind a line feed and a comment that were read. -/
theorem exact_runAll_marker :
    let text := "a \"b\\\nc\n/* d */ @x \"".toList
    let scanner := (ofText text).runAll [.identifier, .gap, .quotedText]
    scanner.Exact text ∧ scanner.cursor.location = ⟨7, 2, 2⟩ ∧
      (scanner.run .tokenize).1 = .error (.unreadable ⟨.unknownMarker "@x", 3, 9⟩) ∧
      ∃ cause place, SyntaxError.mk (.unknownMarker "@x") 3 9 =
          .located cause (.ofOffset text place) ∧
        ∃ read, (scanner.run .tokenize).2.tokens = scanner.tokens ++ read ∧
          Breaks text scanner.cursor.location.offset read cause place := by
  have counts := exact_runAll "a \"b\\\nc\n/* d */ @x \"".toList [.identifier, .gap, .quotedText]
  have stopped : ((ofText "a \"b\\\nc\n/* d */ @x \"".toList).runAll
      [.identifier, .gap, .quotedText]).cursor.location = ⟨7, 2, 2⟩ := by
    rfl
  have failed : (((ofText "a \"b\\\nc\n/* d */ @x \"".toList).runAll
      [.identifier, .gap, .quotedText]).run .tokenize).1 =
        .error (.unreadable ⟨.unknownMarker "@x", 3, 9⟩) := by
    rfl
  dsimp only at counts ⊢
  generalize (ofText _).runAll [.identifier, .gap, .quotedText] = scanner at counts stopped failed ⊢
  obtain ⟨cause, place, located, breaks⟩ := (counts.2 .tokenize).unreadable _ failed
  rw [if_pos (show Command.tokenize.readsAll = true from rfl)] at breaks
  exact ⟨counts.1, stopped, failed, cause, place, located, breaks⟩

end Scanner

end ApiDescription
