import ApiDescription.Proofs.Token.Spelling

/-!
# Rounds of the scanner

A round that reads a token passes a gap and a lexeme of the grammar, and the token
is located behind the gap. `token?_eq_some_iff` says all that such a round can do,
so that nothing else has to look into the scanner.
-/

namespace ApiDescription

namespace Cursor

/-- A cursor whose location is that of the characters before it. -/
def Placed (cursor : Cursor) : Prop :=
  cursor.location = Location.start.after cursor.before.reverse

/-- The start of a text is well placed. -/
theorem placed_ofText (text : List Char) : (ofText text).Placed := rfl

/-- Movement keeps a cursor well placed. -/
theorem Placed.skip {cursor : Cursor} (placed : cursor.Placed) (count : Nat) :
    (cursor.skip count).Placed := by
  unfold Placed at placed
  simp [Placed, Cursor.skip, placed, Location.after_append]

/-- The offset of a well placed cursor counts the characters before it. -/
theorem Placed.offset_eq {cursor : Cursor} (placed : cursor.Placed) :
    cursor.location.offset = cursor.before.length := by
  rw [placed, Location.offset_after]
  simp [Location.start]

/-- The characters before a well placed cursor go up to its offset. -/
theorem Placed.length_before {cursor : Cursor} (placed : cursor.Placed) :
    cursor.before.reverse.length = cursor.location.offset := by
  rw [List.length_reverse, placed.offset_eq]

/-- What precedes the rest of a text stands before the cursor. -/
theorem before_eq {cursor : Cursor} {passed : List Char}
    (text : cursor.text = passed ++ cursor.rest) : cursor.before.reverse = passed :=
  List.append_cancel_right text

/-- The character read last is the last one before the cursor. -/
theorem last?_eq (cursor : Cursor) : cursor.last? = cursor.before.reverse.getLast? := by
  rw [last?, List.getLast?_reverse]

/-- A movement over a stretch of the text. -/
theorem skip_length {cursor : Cursor} {passed more : List Char}
    (ahead : cursor.rest = passed ++ more) :
    cursor.skip passed.length =
      ⟨passed.reverse ++ cursor.before, more, cursor.location.after passed⟩ := by
  simp [skip, ahead]

/-- The character that was passed last is the last one passed, if there is any. -/
theorem last?_skip {cursor : Cursor} {passed more : List Char}
    (ahead : cursor.rest = passed ++ more) :
    (cursor.skip passed.length).last? = passed.getLast?.or cursor.last? := by
  rw [skip_length ahead, last?_eq, last?_eq, List.reverse_append, List.reverse_reverse,
    List.getLast?_append]

end Cursor

namespace Lexeme

/-- The characters that separate tokens: blanks inside a line, and the byte order mark. -/
theorem isGap_iff {c : Char} :
    isGap c = true ↔ c ∈ [' ', '\t', '\r', '\x0c', '\ufeff'] := by
  simp only [isGap, Bool.or_eq_true, decide_eq_true_eq, List.mem_cons, List.not_mem_nil,
    or_false, or_assoc]

/-- No lexeme starts like a gap. -/
theorem Spells.not_gap {kind : Kind} {slice : List Char} {value : String}
    (spelled : Spells kind slice value) : ∀ c ∈ slice.head?, isGap c = false := by
  have ofClass {p : Char → Bool} {c : Char} (holds : p c = true)
      (apart : [' ', '\t', '\r', '\x0c', '\ufeff'].all (!p ·) = true) : isGap c = false := by
    by_contra blank
    have member := isGap_iff.mp (Bool.not_eq_false _ ▸ blank)
    have outside := List.all_eq_true.mp apart c member
    exact absurd holds (by simpa using outside)
  rintro c first
  cases spelled with
  | marker found => cases found <;> cases first <;> decide
  | mark found => cases found <;> cases first <;> decide
  | number digit _ =>
    cases first
    exact ofClass digit (by decide)
  | word begins _ _ =>
    cases first
    exact ofClass begins (by decide +kernel)
  | _ =>
    cases first
    decide

end Lexeme

namespace Scan

/-- The leading gap of a text, when what is behind it starts otherwise. -/
theorem countWhile_gap {gap more : List Char} (blank : ∀ c ∈ gap, Lexeme.isGap c = true)
    (ended : ∀ c ∈ more.head?, Lexeme.isGap c = false) :
    Lexeme.countWhile Lexeme.isGap (gap ++ more) = gap.length := by
  rw [Lexeme.countWhile, Lexeme.takeWhile_append_of_stops blank ended]

/-- What a round that reads a token does: it passes a gap and a lexeme, as long as it can be. -/
theorem token?_eq_some_iff {cursor next : Cursor} {token : Token} :
    token? cursor = .ok (some token) next ↔
      ∃ gap slice more, cursor.rest = gap ++ (slice ++ more) ∧
        (∀ c ∈ gap, Lexeme.isGap c = true) ∧ Lexeme.Spells token.kind slice token.value ∧
        Lexeme.Suits (cursor.skip gap.length).last? token.kind slice ∧
        (∀ c ∈ more.head?, Lexeme.continues token.kind slice c = false) ∧
        token.start = cursor.location.after gap ∧
        token.stop = token.start.offset + slice.length ∧
        next = (cursor.skip gap.length).skip slice.length := by
  constructor
  · intro read
    obtain ⟨behind, whole, blank, -⟩ :=
      Lexeme.exists_takeWhile_append Lexeme.isGap cursor.rest
    rw [token?_apply] at read
    simp only [Lexeme.countWhile] at read
    generalize cursor.rest.takeWhile Lexeme.isGap = gap at whole blank read
    have skipped := Cursor.skip_length whole
    cases behind with
    | nil =>
      simp only [skipped] at read
      cases read
    | cons c following =>
      simp only [skipped] at read
      rw [← skipped] at read
      split at read
      · next kind value count found =>
        obtain ⟨slice, more, split, rfl, spelled, suits, stops⟩ := Lexeme.read_eq_ok_iff.mp found
        cases read
        refine ⟨gap, slice, more, by rw [whole, split], blank, spelled, suits, stops,
          by rw [skipped], ?_, rfl⟩
        rw [split] at skipped
        rw [skipped, Cursor.skip_length rfl, Location.offset_after]
      · cases read
  · rintro ⟨gap, slice, more, ahead, blank, spelled, suits, stops, start, stop, rfl⟩
    obtain ⟨c, slice, rfl⟩ := List.exists_cons_of_ne_nil spelled.ne_nil
    have length : Lexeme.countWhile Lexeme.isGap cursor.rest = gap.length := by
      rw [ahead]
      exact countWhile_gap blank (by simpa using spelled.not_gap)
    have skipped := Cursor.skip_length ahead
    have found : Lexeme.read (cursor.skip gap.length).last? c (slice ++ more) =
        .ok (token.kind, token.value, (c :: slice).length) :=
      Lexeme.read_of_spells rfl spelled suits stops
    have rest : (cursor.skip gap.length).rest = c :: (slice ++ more) := by rw [skipped]; rfl
    have placed : (cursor.skip gap.length).location = token.start := by rw [skipped, start]
    have finish : ((cursor.skip gap.length).skip (c :: slice).length).location.offset =
        token.stop := by
      rw [Cursor.skip_length (show _ = (c :: slice) ++ more from rest), Location.offset_after,
        placed, stop]
    rw [token?_apply, length]
    simp only [rest, found, placed, finish]

/-- A round that reads no token passes a gap to the end of the text. -/
theorem token?_eq_none_iff {cursor next : Cursor} :
    token? cursor = .ok none next ↔
      (∀ c ∈ cursor.rest, Lexeme.isGap c = true) ∧ next = cursor.skip cursor.rest.length := by
  obtain ⟨behind, whole, blank, ended⟩ :=
    Lexeme.exists_takeWhile_append Lexeme.isGap cursor.rest
  rw [token?_apply, Lexeme.countWhile]
  generalize cursor.rest.takeWhile Lexeme.isGap = gap at whole blank ended
  have skipped := Cursor.skip_length whole
  cases behind with
  | nil =>
    simp only [List.append_nil] at whole
    simp only [skipped, whole]
    constructor
    · intro same
      cases same
      exact ⟨blank, rfl⟩
    · rintro ⟨-, rfl⟩
      rfl
  | cons c following =>
    simp only [skipped]
    constructor
    · intro read
      split at read <;> cases read
    · rintro ⟨allBlank, -⟩
      have blankHere := allBlank c (by simp [whole])
      exact absurd blankHere (by simp [ended c rfl])

/-- Whatever a run of the scanner passes, the text stays the same and the cursor well placed. -/
theorem placed_of_rounds {cursor last : Cursor} {tokens : List Token}
    (run : Rounds token? cursor tokens last) (placed : cursor.Placed) :
    last.Placed ∧ last.text = cursor.text := by
  induction run with
  | none cursor => exact ⟨placed, rfl⟩
  | more read _ inductionHypothesis =>
    obtain ⟨gap, slice, -, -, -, -, -, -, -, -, rfl⟩ := token?_eq_some_iff.mp read
    obtain ⟨lastPlaced, sameText⟩ := inductionHypothesis ((placed.skip _).skip _)
    exact ⟨lastPlaced, by simpa using sameText⟩

/-- A round that reads a token leaves less to read. -/
theorem shrinks_token? : Shrinks token? := by
  intro cursor token next read
  obtain ⟨gap, slice, more, ahead, -, spelled, -, -, -, -, rfl⟩ := token?_eq_some_iff.mp read
  have positive := List.length_pos_iff.mpr spelled.ne_nil
  simp only [remaining, Cursor.length_rest_skip, ahead, List.length_append]
  omega

end Scan

/-- The tokens of a text follow from a run of the scanner and the round that ends it. -/
theorem tokenize_of_rounds {text : List Char} {tokens : List Token} {last state : Cursor}
    {fault : Option SyntaxError} (run : Rounds Scan.token? (Cursor.ofText text) tokens last)
    (ended : Scan.token? last = roundEnd fault state) :
    tokenize text = fault.elim (.ok (tokens ++ [Token.finish state.location])) .error := by
  have read : Scan.tokens (Cursor.ofText text) = ⟨tokens, fault, state⟩ :=
    (collect_eq_iff Scan.shrinks_token?.within trivial).mpr ⟨last, run, ended⟩
  rw [tokenize, read]
  cases fault <;> rfl

/-- From every place the text is read by a run of the scanner and a round that ends it. -/
theorem exists_rounds_token? (cursor : Cursor) :
    ∃ tokens last fault state, Rounds Scan.token? cursor tokens last ∧
      Scan.token? last = roundEnd fault state := by
  obtain ⟨last, run, ended⟩ := exists_rounds_collect Scan.shrinks_token?.within
    (show (fun _ => True) cursor from trivial)
  exact ⟨_, last, _, _, run, ended⟩

/-- A text that can be read is passed by a run of the scanner up to a last gap. -/
theorem exists_rounds_of_tokenize {text : List Char} {tokens : List Token}
    (read : tokenize text = .ok tokens) :
    ∃ others last, Rounds Scan.token? (Cursor.ofText text) others last ∧
      (∀ c ∈ last.rest, Lexeme.isGap c = true) ∧
      tokens = others ++ [Token.finish (last.skip last.rest.length).location] := by
  obtain ⟨others, last, fault, state, run, ended⟩ := exists_rounds_token? (.ofText text)
  have whole := tokenize_of_rounds run ended
  rw [read] at whole
  cases fault with
  | some fault => exact nomatch whole
  | none =>
    obtain ⟨blank, rfl⟩ := Scan.token?_eq_none_iff.mp ended
    exact ⟨others, last, run, blank, Except.ok.inj whole⟩

end ApiDescription
