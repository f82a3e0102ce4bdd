import ApiDescription.Proofs.Rounds
import ApiDescription.Token.Lexer

/-!
# Reading one token

What a token is follows from the characters ahead and from whether the character
before them is a colon; where it stands has no influence. `Lexeme.read` is that
function. A round of the scanner skips the gap, applies it, and moves behind the
characters it took, so that every round that reads a token leaves less to read.
-/

namespace ApiDescription

namespace Lexeme

/-- A lexeme as it stands, of all leading characters in a class. -/
def asWritten (kind : List Char → Kind) (p : Char → Bool) (text : List Char) :
    Kind × String × Nat :=
  let word := text.takeWhile p
  (kind word, String.ofList word, word.length)

/-- Reads the lexeme at the start of a text: its kind, its value and the number of its
characters, or why there is none and how far reading went. -/
def read (last? : Option Char) (c : Char) (following : List Char) :
    Except (SyntaxError.Cause × Nat) (Kind × String × Nat) :=
  let text := c :: following
  if c = '\n' then .ok (.newline, "\\n", 1)
  else if c = '/' ∧ following.head? = some '/' ∧ last? ≠ some ':' then
    let raw := lineComment text
    .ok (.comment, String.ofList (Text.dropEndWhile (· = '\r') raw), raw.length)
  else if c = '/' ∧ following.head? = some '*' then
    match commentEnd? (text.drop 2) with
    | some count => .ok (.comment, String.ofList (text.take (count + 2)), count + 2)
    | none => .error (.unterminatedComment, text.length)
  else if c = '/' then .ok (asWritten (fun _ => .path) inPath text)
  else if c = '"' then
    let body := quotedBody following
    if body.2.2.head? = some '"' then .ok (.quotedText, String.ofList body.1, body.2.1 + 2)
    else .error (.unterminatedText, body.2.1 + 1)
  else if c = '\x60' then
    let count := countWhile (· ≠ '\x60') following
    if (following.drop count).head? = some '\x60' then
      .ok (.rawText, String.ofList (text.take (count + 2)), count + 2)
    else .error (.unterminatedRawText, count + 1)
  else if Text.isDigit c then .ok (asWritten (fun _ => .number) inNumber text)
  else if beginsIdentifier c then
    .ok (asWritten (fun word => Scan.wordKind (String.ofList word)) inIdentifier text)
  else if c = '@' then
    let name := following.takeWhile inIdentifier
    match Marker.ofSpelling? ("@" ++ String.ofList name) with
    | some found => .ok (.marker found, found.spelling, name.length + 1)
    | none => .error (.unknownMarker ("@" ++ String.ofList name), name.length + 1)
  else
    match Mark.ofChar? c with
    | some mark => .ok (.mark mark, String.singleton c, 1)
    | none => .error (.unexpectedCharacter c, 0)

/-- What the characters ahead open, given the character before them. -/
inductive Opening (last? : Option Char) : Char → List Char → Prop
  | newline {following : List Char} : Opening last? '\n' following
  | lineComment {rest : List Char} (noScheme : last? ≠ some ':') :
      Opening last? '/' ('/' :: rest)
  | blockComment {rest : List Char} : Opening last? '/' ('*' :: rest)
  | path {following : List Char} (noLine : following.head? = some '/' → last? = some ':')
      (noBlock : following.head? ≠ some '*') : Opening last? '/' following
  | quotedText {following : List Char} : Opening last? '"' following
  | rawText {following : List Char} : Opening last? '\x60' following
  | number {c : Char} {following : List Char} (digit : Text.isDigit c = true) :
      Opening last? c following
  | word {c : Char} {following : List Char} (begins : beginsIdentifier c = true)
      (noNumber : Text.isDigit c = false) : Opening last? c following
  | marker {following : List Char} : Opening last? '@' following
  | single {c : Char} {following : List Char} (noNumber : Text.isDigit c = false)
      (noWord : beginsIdentifier c = false) (noOpening : c ∉ ['\n', '/', '"', '\x60', '@']) :
      Opening last? c following

/-- Whatever is ahead opens something. -/
theorem opening (last? : Option Char) (c : Char) (following : List Char) :
    Opening last? c following := by
  by_cases special : c ∈ ['\n', '/', '"', '\x60', '@']
  · simp only [List.mem_cons, List.not_mem_nil, or_false] at special
    rcases special with rfl | rfl | rfl | rfl | rfl
    · exact .newline
    · by_cases block : following.head? = some '*'
      · obtain ⟨rest, rfl⟩ := List.head?_eq_some_iff.mp block
        exact .blockComment
      by_cases line : following.head? = some '/' ∧ last? ≠ some ':'
      · obtain ⟨rest, rfl⟩ := List.head?_eq_some_iff.mp line.1
        exact .lineComment line.2
      · exact .path (Decidable.not_and_not_right.mp line) block
    · exact .quotedText
    · exact .rawText
    · exact .marker
  · cases digit : Text.isDigit c with
    | true => exact .number digit
    | false =>
      cases begins : beginsIdentifier c with
      | true => exact .word begins digit
      | false => exact .single digit begins special

/-- A character of a class is none of those outside it. -/
theorem ne_of_class {p : Char → Bool} {c other : Char} (holds : p c = true)
    (fails : p other = false) : c ≠ other := by
  rintro rfl
  exact absurd holds (by simp [fails])

/-- A character of a class is in no list of characters outside it. -/
theorem not_mem_of_class {p : Char → Bool} {c : Char} {others : List Char} (holds : p c = true)
    (fails : others.all (fun other => !p other) = true) : c ∉ others := fun member =>
  ne_of_class holds (by simpa using List.all_eq_true.mp fails c member) rfl

section Rules

variable {last? : Option Char} {c : Char} {rest : List Char}

theorem read_lineComment (noScheme : last? ≠ some ':') :
    read last? '/' ('/' :: rest) =
      .ok (.comment,
        String.ofList (Text.dropEndWhile (· = '\r') (lineComment ('/' :: '/' :: rest))),
        (lineComment ('/' :: '/' :: rest)).length) := by
  simp [read, noScheme]

theorem read_blockComment :
    read last? '/' ('*' :: rest) =
      match commentEnd? rest with
      | some count =>
        .ok (.comment, String.ofList (('/' :: '*' :: rest).take (count + 2)), count + 2)
      | none => .error (.unterminatedComment, ('/' :: '*' :: rest).length) := by
  simp [read]

theorem read_path (noLine : rest.head? = some '/' → last? = some ':')
    (noBlock : rest.head? ≠ some '*') :
    read last? '/' rest = .ok (asWritten (fun _ => .path) inPath ('/' :: rest)) := by
  rw [read, if_neg (by decide), if_neg fun line => line.2.2 (noLine line.2.1),
    if_neg fun block => noBlock block.2, if_pos rfl]

theorem read_quotedText :
    read last? '"' rest =
      if (quotedBody rest).2.2.head? = some '"' then
        .ok (.quotedText, String.ofList (quotedBody rest).1, (quotedBody rest).2.1 + 2)
      else .error (.unterminatedText, (quotedBody rest).2.1 + 1) := by
  simp [read]

theorem read_rawText :
    read last? '\x60' rest =
      if (rest.drop (countWhile (· ≠ '\x60') rest)).head? = some '\x60' then
        .ok (.rawText, String.ofList (('\x60' :: rest).take (countWhile (· ≠ '\x60') rest + 2)),
          countWhile (· ≠ '\x60') rest + 2)
      else .error (.unterminatedRawText, countWhile (· ≠ '\x60') rest + 1) := by
  simp [read]

theorem read_number (digit : Text.isDigit c = true) :
    read last? c rest = .ok (asWritten (fun _ => .number) inNumber (c :: rest)) := by
  have others : c ∉ ['\n', '/', '"', '\x60'] := not_mem_of_class digit (by decide)
  simp_all [read]

theorem read_word (begins : beginsIdentifier c = true) (noNumber : Text.isDigit c = false) :
    read last? c rest =
      .ok (asWritten (fun word => Scan.wordKind (String.ofList word)) inIdentifier
        (c :: rest)) := by
  have others : c ∉ ['\n', '/', '"', '\x60'] := not_mem_of_class begins (by decide)
  simp_all [read]

theorem read_marker :
    read last? '@' rest =
      match Marker.ofSpelling? ("@" ++ String.ofList (rest.takeWhile inIdentifier)) with
      | some found => .ok (.marker found, found.spelling, (rest.takeWhile inIdentifier).length + 1)
      | none =>
        .error (.unknownMarker ("@" ++ String.ofList (rest.takeWhile inIdentifier)),
          (rest.takeWhile inIdentifier).length + 1) := by
  have noNumber : Text.isDigit '@' = false := by decide
  have noWord : beginsIdentifier '@' = false := by decide
  simp [read, noNumber, noWord]

theorem read_single (noNumber : Text.isDigit c = false) (noWord : beginsIdentifier c = false)
    (noOpening : c ∉ ['\n', '/', '"', '\x60', '@']) :
    read last? c rest =
      match Mark.ofChar? c with
      | some mark => .ok (.mark mark, String.singleton c, 1)
      | none => .error (.unexpectedCharacter c, 0) := by
  simp_all [read]

end Rules

end Lexeme

namespace Scan

/-- What a scanner answers for a lexeme that was read: it moves behind the characters
taken, and reports a fault where the lexeme starts. -/
def outcome (cursor : Cursor) :
    Except (SyntaxError.Cause × Nat) (Kind × String × Nat) →
      EStateM.Result SyntaxError Cursor (Kind × String)
  | .ok (kind, value, count) => .ok (kind, value) (cursor.skip count)
  | .error (cause, count) => .error (.located cause cursor.location) (cursor.skip count)

/-- Taking the leading characters of a class is taking as many as there are. -/
theorem takeWhile_apply (p : Char → Bool) (cursor : Cursor) :
    takeWhile p cursor =
      .ok (String.ofList (cursor.rest.takeWhile p))
        (cursor.skip (cursor.rest.takeWhile p).length) := by
  have prefixed : cursor.rest.take (cursor.rest.takeWhile p).length = cursor.rest.takeWhile p :=
    (List.prefix_iff_eq_take.mp (List.takeWhile_prefix p)).symm
  simp [takeWhile, take, Lexeme.countWhile, prefixed]

/-- The scanner reads the lexeme that the characters ahead determine. -/
theorem lexeme_apply {cursor : Cursor} {c : Char} {following : List Char}
    (ahead : cursor.rest = c :: following) :
    lexeme cursor.last? c following.head? cursor =
      outcome cursor (Lexeme.read cursor.last? c following) := by
  have asWritten {kind : Kind} (p : Char → Bool) :
      (takeWhile p >>= fun value => pure (kind, value)) cursor =
        outcome cursor (.ok (Lexeme.asWritten (fun _ => kind) p (c :: following))) := by
    simp only [bind_apply, takeWhile_apply, pure_apply, ahead]
    rfl
  have slash : (c = '/' && following.head? == some '/' && cursor.last? != some ':') = true ↔
      c = '/' ∧ following.head? = some '/' ∧ cursor.last? ≠ some ':' := by
    simp [and_assoc]
  have star : (c = '/' && following.head? == some '*') = true ↔
      c = '/' ∧ following.head? = some '*' := by simp
  rw [lexeme, Lexeme.read]
  by_cases feed : c = '\n'
  · rw [if_pos feed, if_pos feed]; rfl
  rw [if_neg feed, if_neg feed]
  by_cases lineOpens : c = '/' ∧ following.head? = some '/' ∧ cursor.last? ≠ some ':'
  · rw [if_pos (slash.mpr lineOpens), if_pos lineOpens, bind_apply, lineComment, ahead]; rfl
  rw [if_neg (mt slash.mp lineOpens), if_neg lineOpens]
  by_cases blockOpens : c = '/' ∧ following.head? = some '*'
  · rw [if_pos (star.mpr blockOpens), if_pos blockOpens, bind_apply, blockComment, ahead]
    cases Lexeme.commentEnd? ((c :: following).drop 2) with
    | none => rfl
    | some count => simp only [take, ahead]; rfl
  rw [if_neg (mt star.mp blockOpens), if_neg blockOpens]
  by_cases opens : c = '/'
  · rw [if_pos opens, if_pos opens]
    exact asWritten Lexeme.inPath
  rw [if_neg opens, if_neg opens]
  by_cases quote : c = '"'
  · rw [if_pos quote, if_pos quote, bind_apply, quotedText, ahead]
    simp only [List.drop_succ_cons, List.drop_zero]
    by_cases closed : (Lexeme.quotedBody following).2.2.head? = some '"'
    · simp only [if_pos closed]; rfl
    · simp only [if_neg closed]; rfl
  rw [if_neg quote, if_neg quote]
  by_cases backtick : c = '\x60'
  · rw [if_pos backtick, if_pos backtick, bind_apply, rawText, ahead]
    simp only [List.drop_succ_cons, List.drop_zero]
    by_cases closed : (following.drop (Lexeme.countWhile (· ≠ '\x60') following)).head? =
        some '\x60'
    · simp only [if_pos closed, take, ahead]; rfl
    · simp only [if_neg closed]; rfl
  rw [if_neg backtick, if_neg backtick]
  by_cases digit : Text.isDigit c = true
  · rw [if_pos digit, if_pos digit]
    exact asWritten Lexeme.inNumber
  rw [if_neg digit, if_neg digit]
  by_cases begins : Lexeme.beginsIdentifier c = true
  · rw [if_pos begins, if_pos begins, bind_apply, identifier, takeWhile_apply, ahead]; rfl
  rw [if_neg begins, if_neg begins]
  by_cases sign : c = '@'
  · have moved : cursor.advance.rest = following := by simp [Cursor.advance, Cursor.skip, ahead]
    rw [if_pos sign, if_pos sign, bind_apply, marker, identifier, takeWhile_apply, moved,
      Cursor.advance, Cursor.skip_skip, Nat.add_comm 1]
    dsimp only
    cases Marker.ofSpelling? ("@" ++ String.ofList (following.takeWhile Lexeme.inIdentifier)) with
    | none => rfl
    | some found => rfl
  rw [if_neg sign, if_neg sign]
  cases Mark.ofChar? c with
  | none => rw [outcome, Cursor.skip_zero]; rfl
  | some mark => rfl

/-- A round of the scanner: the gap, and behind it the lexeme if the text goes on. -/
theorem token?_apply (cursor : Cursor) :
    token? cursor =
      let start := cursor.skip (Lexeme.countWhile Lexeme.isGap cursor.rest)
      match start.rest with
      | [] => .ok none start
      | c :: following =>
        match Lexeme.read start.last? c following with
        | .ok (kind, value, count) =>
          .ok (some ⟨kind, value, start.location, (start.skip count).location.offset⟩)
            (start.skip count)
        | .error (cause, count) =>
          .error (.located cause start.location) (start.skip count) := by
  generalize behind : cursor.skip (Lexeme.countWhile Lexeme.isGap cursor.rest) = start
  have entered : gap cursor = .ok () start := by rw [← behind]; rfl
  have looked : (get : Scan Cursor) start = .ok start start := rfl
  rw [token?, bind_apply, entered]
  simp only [bind_apply, looked]
  cases ahead : start.rest with
  | nil => rfl
  | cons c following =>
    simp only [bind_apply, lexeme_apply ahead]
    cases Lexeme.read start.last? c following <;> rfl

end Scan

end ApiDescription
