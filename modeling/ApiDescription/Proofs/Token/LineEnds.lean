import ApiDescription.Proofs.Token.Gaps

/-!
# Tokens of a text with carriage returns

A carriage return in front of a line feed is passed like a blank, or it ends a line comment, whose
value does not have it. A text in which every line ends with both therefore has the same tokens as
the text in which it ends with a line feed. They stand on the same lines, behind the carriage
returns of the lines above them.
-/

namespace ApiDescription

namespace Text

/-- Characters with a carriage return in front of each line feed. -/
def withCarriageReturns (text : List Char) : List Char :=
  text.flatMap fun c => if c = '\n' then ['\r', '\n'] else [c]

/-- Where a place of a text is found again with carriage returns. -/
def widened (text : List Char) (offset : Nat) : Nat :=
  (withCarriageReturns (text.take offset)).length

/-- Texts in turn get carriage returns in turn. -/
theorem withCarriageReturns_append (first second : List Char) :
    withCarriageReturns (first ++ second) =
      withCarriageReturns first ++ withCarriageReturns second :=
  List.flatMap_append

/-- A part of a line stays as it is. -/
theorem withCarriageReturns_eq_self {text : List Char} (within : '\n' ∉ text) :
    withCarriageReturns text = text := by
  have each : ∀ c ∈ text, (if c = '\n' then ['\r', '\n'] else [c]) = [c] := fun c member =>
    if_neg (ne_of_mem_of_not_mem member within)
  rw [withCarriageReturns, List.flatMap_congr each, List.flatMap_singleton']

/-- There are as many lines as before. -/
theorem count_withCarriageReturns (text : List Char) :
    (withCarriageReturns text).count '\n' = text.count '\n' := by
  induction text with
  | nil => rfl
  | cons c text inductionHypothesis =>
    rw [← List.singleton_append, withCarriageReturns_append, List.count_append, List.count_append,
      inductionHypothesis]
    by_cases feed : c = '\n' <;> simp [withCarriageReturns, feed]

/-- The last character stays the last one. -/
theorem getLast?_withCarriageReturns (text : List Char) :
    (withCarriageReturns text).getLast? = text.getLast? := by
  obtain rfl | ⟨front, c, rfl⟩ := text.eq_nil_or_concat
  · rfl
  · rw [List.concat_eq_append, withCarriageReturns_append]
    by_cases feed : c = '\n' <;> simp [withCarriageReturns, feed]

/-- What stands in front of a stretch of a text, and the stretch. -/
theorem take_append_sliceOf (text : List Char) {start stop : Nat} (forward : start ≤ stop) :
    text.take start ++ sliceOf text start stop = text.take stop := by
  rw [sliceOf, ← List.take_add, Nat.add_sub_cancel' forward]

/-- Two places are as far apart as what stands between them with its carriage returns. -/
theorem widened_eq_add (text : List Char) {start stop : Nat} (forward : start ≤ stop) :
    widened text stop =
      widened text start + (withCarriageReturns (sliceOf text start stop)).length := by
  rw [widened, widened, ← take_append_sliceOf text forward, withCarriageReturns_append,
    List.length_append]

/-- A stretch of a text is found again with its carriage returns. -/
theorem sliceOf_withCarriageReturns (text : List Char) {start stop : Nat} (forward : start ≤ stop) :
    sliceOf (withCarriageReturns text) (widened text start) (widened text stop) =
      withCarriageReturns (sliceOf text start stop) := by
  have whole : withCarriageReturns text = withCarriageReturns (text.take start) ++
      (withCarriageReturns (sliceOf text start stop) ++ withCarriageReturns (text.drop stop)) := by
    rw [← List.append_assoc, ← withCarriageReturns_append, take_append_sliceOf text forward,
      ← withCarriageReturns_append, List.take_append_drop]
  rw [sliceOf, widened_eq_add text forward, Nat.add_sub_cancel_left, widened, whole,
    List.drop_left, List.take_left]

end Text

namespace Cursor

/-- The cursor at the same place of the text with carriage returns. -/
def withCarriageReturns (cursor : Cursor) : Cursor :=
  let before := Text.withCarriageReturns cursor.before.reverse
  ⟨before.reverse, Text.withCarriageReturns cursor.rest, Location.start.after before⟩

/-- Cursors move in parallel. -/
theorem skip_withCarriageReturns {cursor : Cursor} {passed more : List Char}
    (ahead : cursor.rest = passed ++ more) :
    cursor.withCarriageReturns.skip (Text.withCarriageReturns passed).length =
      (cursor.skip passed.length).withCarriageReturns := by
  have rest : cursor.withCarriageReturns.rest =
      Text.withCarriageReturns passed ++ Text.withCarriageReturns more := by
    rw [withCarriageReturns, ahead, Text.withCarriageReturns_append]
  rw [skip_length rest, skip_length ahead]
  simp [withCarriageReturns, Text.withCarriageReturns_append, Location.after_append]

/-- The character read last is the same. -/
theorem last?_withCarriageReturns (cursor : Cursor) :
    cursor.withCarriageReturns.last? = cursor.last? := by
  rw [last?, last?, withCarriageReturns, List.head?_reverse, Text.getLast?_withCarriageReturns,
    List.getLast?_reverse]

/-- The line is the same. -/
theorem Placed.line_withCarriageReturns {cursor : Cursor} (placed : cursor.Placed) :
    cursor.withCarriageReturns.location.line = cursor.location.line := by
  rw [placed, withCarriageReturns, Location.line_after, Location.line_after,
    Text.count_withCarriageReturns]

/-- The cursor stands where its place is found again. -/
theorem Placed.offset_withCarriageReturns {cursor : Cursor} (placed : cursor.Placed) :
    cursor.withCarriageReturns.location.offset =
      Text.widened cursor.text cursor.location.offset := by
  have upTo : cursor.text.take cursor.location.offset = cursor.before.reverse := by
    rw [text, List.take_left' placed.length_before]
  rw [Text.widened, upTo, withCarriageReturns, Location.offset_after]
  exact Nat.zero_add _

end Cursor

/-- A token as it is found again in the text with carriage returns. Line feeds stand behind theirs,
and line comments may hold theirs, which is why nothing is said about where they end. -/
structure Token.Widened (text : List Char) (token other : Token) : Prop where
  kind : other.kind = token.kind
  value : other.value = token.value
  line : other.start.line = token.start.line
  start : token.kind ≠ .newline → other.start.offset = Text.widened text token.start.offset
  stop : token.kind ≠ .newline → token.kind ≠ .comment →
    other.stop = Text.widened text token.stop

/-- A carriage return behind a line comment is a part of it, and no part of its value. -/
theorem Lexeme.Spells.carriageReturn {slice : List Char} {value : String}
    (spelled : Spells .comment slice value) (second : slice[1]? = some '/')
    (inLine : '\n' ∉ slice) : Spells .comment (slice ++ ['\r']) value := by
  obtain ⟨body, rfl | rfl⟩ := spelled.slice_of_comment rfl
  · have kept : Text.dropEndWhile (· = '\r') ('/' :: '/' :: (body ++ ['\r'])) =
        Text.dropEndWhile (· = '\r') ('/' :: '/' :: body) := by
      simp [Text.dropEndWhile]
    rw [spelled.value_eq, valueOf, if_pos second, ← kept]
    exact .lineComment (by simpa using inLine)
  · cases second

namespace Scan

variable {cursor : Cursor} {token : Token} {gap slice more : List Char}

/-- A token that begins in the same place is found again, if it is spelled there. -/
theorem token?_withCarriageReturns {rest : List Char} (placed : cursor.Placed)
    (ahead : cursor.rest = gap ++ rest) (blank : ∀ c ∈ gap, Lexeme.isGap c = true)
    (start : token.start = cursor.location.after gap)
    (aheadWidened : Text.withCarriageReturns rest = slice ++ more)
    (spelled : Lexeme.Spells token.kind slice token.value)
    (suits : Lexeme.Suits (cursor.skip gap.length).last? token.kind slice)
    (stops : ∀ c ∈ more.head?, Lexeme.continues token.kind slice c = false)
    (stop : token.kind ≠ .comment →
      Text.widened cursor.text token.start.offset + slice.length =
        Text.widened cursor.text token.stop) :
    ∃ other, token.Widened cursor.text other ∧
      token? cursor.withCarriageReturns = .ok (some other)
        ((cursor.skip gap.length).withCarriageReturns.skip slice.length) := by
  have startPlaced := placed.skip gap.length
  have place : (cursor.skip gap.length).location = token.start := by
    rw [Cursor.skip_length ahead, start]
  have offset : (cursor.skip gap.length).withCarriageReturns.location.offset =
      Text.widened cursor.text token.start.offset := by
    rw [startPlaced.offset_withCarriageReturns, place, Cursor.text_skip]
  have whole : cursor.withCarriageReturns.rest = gap ++ (slice ++ more) := by
    rw [Cursor.withCarriageReturns, ahead, Text.withCarriageReturns_append, aheadWidened,
      Text.withCarriageReturns_eq_self (Lexeme.not_mem_of_gap blank)]
  have behindGap := Cursor.skip_withCarriageReturns ahead
  rw [Text.withCarriageReturns_eq_self (Lexeme.not_mem_of_gap blank)] at behindGap
  refine ⟨⟨token.kind, token.value, (cursor.skip gap.length).withCarriageReturns.location,
      (cursor.skip gap.length).withCarriageReturns.location.offset + slice.length⟩,
    ⟨rfl, rfl, ?_, fun _ => offset, fun _ noComment => ?_⟩, token?_eq_some_iff.mpr
      ⟨gap, slice, more, whole, blank, spelled, ?_, stops, ?_, rfl, ?_⟩⟩
  · rw [startPlaced.line_withCarriageReturns, place]
  · rw [offset]
    exact stop noComment
  · rw [behindGap, Cursor.last?_withCarriageReturns]
    exact suits
  · rw [← behindGap, Cursor.skip_length whole]
  · rw [behindGap]

/-- A line feed is found again behind a carriage return. -/
theorem token?_carriageReturn (placed : cursor.Placed) (ahead : cursor.rest = gap ++ '\n' :: more)
    (blank : ∀ c ∈ gap, Lexeme.isGap c = true) (isFeed : token.kind = .newline)
    (value : token.value = "\\n") (start : token.start = cursor.location.after gap) :
    ∃ other, token.Widened cursor.text other ∧
      token? cursor.withCarriageReturns = .ok (some other)
        ((cursor.skip gap.length).skip 1).withCarriageReturns := by
  have noFeed := Lexeme.not_mem_of_gap blank
  have aheadWidened : cursor.withCarriageReturns.rest =
      (gap ++ ['\r']) ++ (['\n'] ++ Text.withCarriageReturns more) := by
    rw [Cursor.withCarriageReturns, ahead, Text.withCarriageReturns_append,
      Text.withCarriageReturns_eq_self noFeed]
    simp [Text.withCarriageReturns]
  have behind : (cursor.withCarriageReturns.skip (gap ++ ['\r']).length).skip 1 =
      ((cursor.skip gap.length).skip 1).withCarriageReturns := by
    have both := Cursor.skip_withCarriageReturns
      (show cursor.rest = (gap ++ ['\n']) ++ more by simp [ahead])
    rw [Text.withCarriageReturns_append, Text.withCarriageReturns_eq_self noFeed] at both
    rw [Cursor.skip_skip, Cursor.skip_skip]
    simpa [Text.withCarriageReturns] using both
  let place := cursor.withCarriageReturns.location.after (gap ++ ['\r'])
  have line : place.line = token.start.line := by
    rw [start, Location.line_after, Location.line_after, placed.line_withCarriageReturns,
      List.count_append, List.count_eq_zero_of_not_mem noFeed]
    rfl
  refine ⟨⟨.newline, "\\n", place, place.offset + 1⟩,
    ⟨isFeed.symm, value.symm, line, fun apart => absurd isFeed apart,
      fun apart => absurd isFeed apart⟩, token?_eq_some_iff.mpr
      ⟨gap ++ ['\r'], ['\n'], Text.withCarriageReturns more, aheadWidened, ?_, .newline,
        (fun slash => nomatch slash), fun _ _ => rfl, rfl, rfl, behind.symm⟩⟩
  intro c member
  rcases List.mem_append.mp member with inGap | isReturn
  · exact blank c inGap
  · rw [List.mem_singleton.mp isReturn]
    rfl

/-- A line comment in front of a line feed is found again. It ends behind the carriage return, and
what follows is read as from the place in front of it. -/
theorem token?_comment_carriageReturn (placed : cursor.Placed)
    (ahead : cursor.rest = gap ++ (slice ++ '\n' :: more))
    (blank : ∀ c ∈ gap, Lexeme.isGap c = true) (start : token.start = cursor.location.after gap)
    (isComment : token.kind = .comment) (spelled : Lexeme.Spells .comment slice token.value)
    (second : slice[1]? = some '/') (inLine : '\n' ∉ slice)
    (suits : Lexeme.Suits (cursor.skip gap.length).last? .comment slice) :
    ∃ other behind, token.Widened cursor.text other ∧
      token? cursor.withCarriageReturns = .ok (some other) behind ∧
      token? behind =
        token? ((cursor.skip gap.length).skip slice.length).withCarriageReturns := by
  have rest : (cursor.skip gap.length).rest = slice ++ '\n' :: more := by
    rw [Cursor.skip_length ahead]
  have behind := Cursor.skip_withCarriageReturns rest
  rw [Text.withCarriageReturns_eq_self inLine] at behind
  have aheadWidened : Text.withCarriageReturns (slice ++ '\n' :: more) =
      (slice ++ ['\r']) ++ '\n' :: Text.withCarriageReturns more := by
    rw [Text.withCarriageReturns_append, Text.withCarriageReturns_eq_self inLine]
    simp [Text.withCarriageReturns]
  have suitsWidened : Lexeme.Suits (cursor.skip gap.length).last? .comment (slice ++ ['\r']) := by
    obtain ⟨body, rfl | rfl⟩ := spelled.slice_of_comment rfl
    · exact suits
    · cases second
  obtain ⟨other, widened, readOther⟩ := token?_withCarriageReturns placed ahead blank start
    aheadWidened (isComment ▸ spelled.carriageReturn second inLine) (isComment ▸ suitsWidened)
    (fun c first => Option.some.inj first ▸ Lexeme.continues_lineFeed _ _)
    fun apart => absurd isComment apart
  refine ⟨other, _, widened, readOther, ?_⟩
  have returnAhead : ((cursor.skip gap.length).skip slice.length).withCarriageReturns.rest =
      ['\r'] ++ '\n' :: Text.withCarriageReturns more := by
    rw [Cursor.skip_length rest]
    simp [Cursor.withCarriageReturns, Text.withCarriageReturns]
  rw [List.length_append, ← Cursor.skip_skip, behind]
  exact token?_skip_gap returnAhead (by simp [Lexeme.isGap])

/-- What ends in front of some text ends in front of it with carriage returns, if it is no line
comment. -/
theorem stops_withCarriageReturns {kind : Kind}
    (stops : ∀ c ∈ more.head?, Lexeme.continues kind slice c = false)
    (noComment : more ≠ [] → kind = .comment → slice[1]? ≠ some '/') :
    ∀ c ∈ (Text.withCarriageReturns more).head?, Lexeme.continues kind slice c = false := by
  cases more with
  | nil => simp [Text.withCarriageReturns]
  | cons next more =>
    intro c first
    by_cases feed : next = '\n'
    · obtain rfl : '\r' = c := by simpa [Text.withCarriageReturns, feed] using first
      exact Lexeme.continues_gap (by decide) (fun _ => by decide) (noComment (by simp))
    · obtain rfl : next = c := by simpa [Text.withCarriageReturns, feed] using first
      exact stops next rfl

/-- Every token is found again, and what follows it is read as from the place behind it. -/
theorem exists_token?_withCarriageReturns {next : Cursor} (placed : cursor.Placed)
    (read : token? cursor = .ok (some token) next)
    (inLine : token.kind ≠ .newline → '\n' ∉ token.slice cursor.text) :
    ∃ other behind, token.Widened cursor.text other ∧
      token? cursor.withCarriageReturns = .ok (some other) behind ∧
      token? behind = token? next.withCarriageReturns := by
  obtain ⟨gap, slice, more, ahead, blank, spelled, suits, stops, start, stop, rfl⟩ :=
    token?_eq_some_iff.mp read
  by_cases isFeed : token.kind = .newline
  · obtain rfl := spelled.slice_of_newline isFeed
    have value : token.value = "\\n" := by rw [spelled.value_eq, isFeed]; rfl
    obtain ⟨other, widened, readOther⟩ :=
      token?_carriageReturn placed ahead blank isFeed value start
    exact ⟨other, _, widened, readOther, rfl⟩
  have cut := placed.slice_eq ahead start stop
  have noFeed : '\n' ∉ slice := cut ▸ inLine isFeed
  by_cases returns : token.kind = .comment ∧ slice[1]? = some '/' ∧ more ≠ []
  · obtain ⟨isComment, second, goesOn⟩ := returns
    obtain ⟨next, tail, rfl⟩ := List.exists_cons_of_ne_nil goesOn
    obtain rfl : next = '\n' := by simpa [isComment, Lexeme.continues, second] using stops next rfl
    exact token?_comment_carriageReturn placed ahead blank start isComment (isComment ▸ spelled)
      second noFeed (isComment ▸ suits)
  · have rest : (cursor.skip gap.length).rest = slice ++ more := by rw [Cursor.skip_length ahead]
    have behind := Cursor.skip_withCarriageReturns rest
    rw [Text.withCarriageReturns_eq_self noFeed] at behind
    have length : Text.widened cursor.text token.start.offset + slice.length =
        Text.widened cursor.text token.stop := by
      have between : sliceOf cursor.text token.start.offset token.stop = slice := cut
      rw [Text.widened_eq_add cursor.text (by omega : token.start.offset ≤ token.stop), between,
        Text.withCarriageReturns_eq_self noFeed]
    obtain ⟨other, widened, readOther⟩ := token?_withCarriageReturns placed ahead blank start
      (by rw [Text.withCarriageReturns_append, Text.withCarriageReturns_eq_self noFeed]) spelled
      suits (stops_withCarriageReturns stops fun goesOn isComment second =>
        returns ⟨isComment, second, goesOn⟩) fun _ => length
    exact ⟨other, _, widened, readOther, by rw [behind]⟩

/-- Along a run every token is found again. -/
theorem exists_rounds_withCarriageReturns {last : Cursor} {tokens : List Token}
    (run : Rounds token? cursor tokens last) (placed : cursor.Placed)
    (inLine : ∀ token ∈ tokens, token.kind ≠ .newline → '\n' ∉ token.slice cursor.text)
    {start : Cursor} (same : token? start = token? cursor.withCarriageReturns) :
    ∃ others reached, List.Forall₂ (Token.Widened cursor.text) tokens others ∧
      Rounds token? start others reached ∧
      token? reached = token? last.withCarriageReturns := by
  induction run generalizing start with
  | none cursor => exact ⟨[], start, .nil, .none start, same⟩
  | @more cursor next last token tokens read later inductionHypothesis =>
    rw [List.forall_mem_cons] at inLine
    obtain ⟨other, behind, widened, readOther, sameBehind⟩ :=
      exists_token?_withCarriageReturns placed read inLine.1
    obtain ⟨nextPlaced, sameText⟩ := placed_of_rounds (.single read) placed
    rw [← sameText] at inLine
    obtain ⟨others, reached, allWidened, run, ends⟩ :=
      inductionHypothesis nextPlaced inLine.2 sameBehind
    rw [sameText] at allWidened
    exact ⟨other :: others, reached, .cons widened allWidened, .more (same.trans readOther) run,
      ends⟩

end Scan

/-- With carriage returns in front of its line feeds a text has the same tokens, if no other tokens
hold line feeds. -/
theorem tokenize_withCarriageReturns {text : List Char} {tokens : List Token} {finish : Token}
    (read : tokenize text = .ok (tokens ++ [finish]))
    (inLine : ∀ token ∈ tokens, token.kind ≠ .newline → '\n' ∉ token.slice text) :
    ∃ others otherFinish,
      tokenize (Text.withCarriageReturns text) = .ok (others ++ [otherFinish]) ∧
      List.Forall₂ (Token.Widened text) tokens others ∧ finish.Widened text otherFinish := by
  obtain ⟨front, last, run, blank, whole⟩ := exists_rounds_of_tokenize read
  obtain ⟨rfl, isFinish⟩ := List.append_inj' whole rfl
  rw [List.singleton_inj] at isFinish
  subst isFinish
  obtain ⟨placed, sameText⟩ := Scan.placed_of_rounds run (Cursor.placed_ofText _)
  obtain ⟨others, reached, widened, runWidened, ends⟩ :=
    Scan.exists_rounds_withCarriageReturns run (Cursor.placed_ofText _) inLine
      (show Scan.token? (Cursor.ofText (Text.withCarriageReturns text)) = _ from rfl)
  have behind := Cursor.skip_withCarriageReturns (List.append_nil last.rest).symm
  have sameRest : Text.withCarriageReturns last.rest = last.rest :=
    Text.withCarriageReturns_eq_self (Lexeme.not_mem_of_gap blank)
  have ended : Scan.token? last.withCarriageReturns =
      .ok none (last.skip last.rest.length).withCarriageReturns := by
    have rest : last.withCarriageReturns.rest = last.rest := sameRest
    rw [sameRest] at behind
    exact Scan.token?_eq_none_iff.mpr ⟨rest ▸ blank, by rw [rest, behind]⟩
  have atEnd := placed.skip last.rest.length
  have offset : (last.skip last.rest.length).withCarriageReturns.location.offset =
      Text.widened text (last.skip last.rest.length).location.offset := by
    rw [atEnd.offset_withCarriageReturns, Cursor.text_skip, sameText]
    rfl
  exact ⟨others, _, tokenize_of_rounds runWidened (show _ = roundEnd none _ from ends.trans ended),
    widened, rfl, rfl, atEnd.line_withCarriageReturns, fun _ => offset, fun _ _ => offset⟩

end ApiDescription
