import ApiDescription.Proofs.Token.Joining
import ApiDescription.Proofs.Token.Tiling
import Mathlib.Data.List.Chain

/-!
# Tokens of a text with a comment inserted

A comment written behind a blank in front of a line feed is one more token there. The
tokens in front of it stay as they are, because no lexeme but a comment goes on over a
blank, and those behind the line feed are only displaced.
-/

namespace ApiDescription

/-- A comment on the rest of a line, with the blank in front of it. -/
def remarkText (note : List Char) : List Char := ' ' :: '/' :: '/' :: ' ' :: note

/-- The token of a comment on the rest of a line, where the line ends with a line feed. -/
def Token.remark (feed : Token) (note : List Char) : Token :=
  { kind := .comment
    value := String.ofList (Text.dropEndWhile (· = '\r') ('/' :: '/' :: ' ' :: note))
    start := feed.start.next ' '
    stop := (feed.start.next ' ').offset + (note.length + 3) }

/-- A text with a comment in front of one of its line feeds. -/
def withRemark (text : List Char) (feed : Token) (note : List Char) : List Char :=
  text.take feed.start.offset ++ remarkText note ++ text.drop feed.start.offset

/-- A token of a kind that is written without line feeds. -/
def Kind.isInline : Kind → Bool
  | .newline | .comment | .quotedText | .rawText | .endOfText => false
  | _ => true

/-- Two tokens in turn, on one line if the first one is written without line feeds. -/
def Token.GoesOn (first second : Token) : Prop :=
  first.kind.isInline = true → second.start.line = first.start.line

namespace Lexeme

/-- Of all lexemes only a comment goes on over a blank. -/
theorem continues_blank {kind : Kind} (noComment : kind ≠ .comment) (slice : List Char) :
    continues kind slice ' ' = false := by
  unfold continues
  split
  · decide
  · decide
  · decide
  · decide
  · decide
  · contradiction
  · rfl

/-- Gaps have no line feeds. -/
theorem not_mem_of_gap {gap : List Char} (blank : ∀ c ∈ gap, isGap c = true) : '\n' ∉ gap :=
  fun found => absurd (blank _ found) (by decide)

/-- What is written without line feeds has none. -/
theorem Spells.not_mem_of_isInline {kind : Kind} {slice : List Char} {value : String}
    (spelled : Spells kind slice value) (isInline : kind.isInline = true) : '\n' ∉ slice := by
  have outside {p : Char → Bool} {rest : List Char} (inside : ∀ c ∈ rest, p c = true)
      (apart : p '\n' = false) : '\n' ∉ rest := fun found => by
    rw [inside _ found] at apart
    cases apart
  cases spelled with
  | newline | lineComment | blockComment | quotedText | rawText => cases isInline
  | path inside _ =>
    exact List.not_mem_cons_of_ne_of_not_mem (by decide) (outside inside (by decide))
  | number digit inside =>
    exact List.not_mem_cons_of_ne_of_not_mem (ne_of_class digit (by decide)).symm
      (outside inside (by decide))
  | word begins _ inside =>
    exact List.not_mem_cons_of_ne_of_not_mem (ne_of_class begins (by decide)).symm
      (outside inside (by decide))
  | marker found => cases found <;> decide
  | mark found => cases found <;> decide

end Lexeme

namespace Scan

/-- Tokens in turn stand on one line as long as they are written without line feeds. -/
theorem isChain_goesOn {cursor last : Cursor} {tokens : List Token}
    (run : Rounds token? cursor tokens last) : tokens.IsChain Token.GoesOn := by
  induction run with
  | none _ => exact .nil
  | @more cursor next last token tokens read later inductionHypothesis =>
    cases later with
    | none _ => exact .singleton token
    | @more _ _ _ second _ readSecond _ =>
      refine .cons_cons ?_ inductionHypothesis
      intro isInline
      obtain ⟨gap, slice, more, ahead, -, spelled, -, -, start, -, rfl⟩ :=
        token?_eq_some_iff.mp read
      obtain ⟨secondGap, _, _, _, blank, _, _, _, secondStart, -, -⟩ :=
        token?_eq_some_iff.mp readSecond
      have rest : (cursor.skip gap.length).rest = slice ++ more := by
        rw [Cursor.skip_length ahead]
      have place : (cursor.skip gap.length).location = token.start := by
        rw [Cursor.skip_length ahead, start]
      rw [secondStart, Location.line_after, Cursor.skip_length rest, place, Location.line_after,
        List.count_eq_zero_of_not_mem (spelled.not_mem_of_isInline isInline),
        List.count_eq_zero_of_not_mem (Lexeme.not_mem_of_gap blank), Nat.add_zero]

end Scan

namespace Cursor

/-- The place behind the last character of the text. -/
def finish (cursor : Cursor) : Nat := cursor.location.offset + cursor.rest.length

/-- Movement does not change where the text ends. -/
theorem finish_skip (cursor : Cursor) {count : Nat} (inside : count ≤ cursor.rest.length) :
    (cursor.skip count).finish = cursor.finish := by
  simp only [finish, skip, Location.offset_after, List.length_take, List.length_drop]
  omega

/-- Below a line feed a cursor is displaced by the text in front of the line feed. -/
theorem Placed.displaced_below {cursor : Cursor} {first second : List Char}
    (placed : cursor.Placed) (text : cursor.text = first ++ '\n' :: second)
    (rest : cursor.rest = second) :
    ((Cursor.ofText ('\n' :: second)).skip 1).Displaced (.below first) cursor := by
  have before : cursor.before.reverse = first ++ ['\n'] := before_eq (by simp [text, rest])
  have start : (Cursor.ofText ('\n' :: second)).skip 1 = ⟨['\n'], second, ⟨1, 2, 1⟩⟩ := rfl
  rw [start]
  refine ⟨rest, ?_, ?_⟩
  · have last : cursor.last? = some '\n' := by
      rw [last?_eq, before, List.getLast?_concat]
    rw [last]
    rfl
  · have offset : (Location.start.after first).offset = first.length := by
      rw [Location.offset_after]
      exact Nat.zero_add _
    have line : (Location.start.after first).line = 1 + first.count '\n' :=
      Location.line_after .start first
    rw [placed, before, Location.after_append]
    simp only [Displacement.location, Displacement.below, Location.after_cons, Location.after_nil,
      Location.next, ↓reduceIte, offset, line, Location.mk.injEq]
    exact ⟨by omega, by omega, trivial⟩

end Cursor

namespace Scan

/-- A token inside a text is read alike whatever follows the text, unless it would go on there. -/
theorem token?_refollowed {cursor next : Cursor} {token : Token} {more other : List Char}
    (read : token? (cursor.followedBy more) = .ok (some token) next)
    (inside : token.stop ≤ cursor.finish)
    (ended : token.stop = cursor.finish → ∀ slice, Lexeme.Spells token.kind slice token.value →
      ∀ c ∈ other.head?, Lexeme.continues token.kind slice c = false) :
    ∃ inner : Cursor, inner.finish = cursor.finish ∧ next = inner.followedBy more ∧
      token? (cursor.followedBy other) = .ok (some token) (inner.followedBy other) := by
  obtain ⟨gap, slice, behind, ahead, blank, spelled, suits, stops, start, stop, rfl⟩ :=
    token?_eq_some_iff.mp read
  have offset : token.start.offset = cursor.location.offset + gap.length := by
    rw [start, Location.offset_after]
    rfl
  have length : gap.length + slice.length ≤ cursor.rest.length := by
    unfold Cursor.finish at inside
    omega
  -- The token leaves something of the text, or ends with it.
  obtain ⟨left, rest⟩ : ∃ left, cursor.rest = gap ++ (slice ++ left) := by
    have whole : gap ++ slice <+: cursor.rest ++ more :=
      ⟨behind, by rw [List.append_assoc]; exact ahead.symm⟩
    obtain ⟨left, split⟩ := List.prefix_of_prefix_length_le whole (List.prefix_append ..)
      (by simpa using length)
    exact ⟨left, by rw [← split, List.append_assoc]⟩
  have gapInside : gap.length ≤ cursor.rest.length := by omega
  have sliceInside : slice.length ≤ (cursor.skip gap.length).rest.length := by
    rw [Cursor.skip_length rest]
    simp
  refine ⟨(cursor.skip gap.length).skip slice.length, ?_, ?_, ?_⟩
  · rw [Cursor.finish_skip _ sliceInside, Cursor.finish_skip _ gapInside]
  · rw [cursor.followedBy_skip _ gapInside, Cursor.followedBy_skip _ _ sliceInside]
  · rw [cursor.followedBy_skip _ gapInside] at suits
    refine token?_eq_some_iff.mpr ⟨gap, slice, left ++ other,
      by simp [Cursor.followedBy, rest], blank, spelled, ?_, ?_, start, stop, ?_⟩
    · rw [cursor.followedBy_skip _ gapInside]
      exact suits
    · intro next first
      cases left with
      | nil =>
        refine ended ?_ slice spelled next first
        simp only [Cursor.finish, rest, List.length_append, List.length_nil]
        omega
      | cons c left =>
        apply stops next
        have behindSplit : behind = (c :: left) ++ more := by
          have both : gap ++ (slice ++ behind) = gap ++ (slice ++ ((c :: left) ++ more)) := by
            rw [← ahead, Cursor.followedBy, rest]
            simp
          exact List.append_cancel_left (List.append_cancel_left both)
        rw [behindSplit]
        exact first
    · rw [cursor.followedBy_skip _ gapInside, Cursor.followedBy_skip _ _ sliceInside]

/-- The tokens inside a text are read alike whatever follows the text, unless the last of them
would go on there. -/
theorem rounds_refollowed {cursor last : Cursor} {tokens : List Token} {more other : List Char}
    (run : Rounds token? (cursor.followedBy more) tokens last)
    (inside : ∀ token ∈ tokens, token.stop ≤ cursor.finish ∧
      (token.stop = cursor.finish → ∀ slice, Lexeme.Spells token.kind slice token.value →
        ∀ c ∈ other.head?, Lexeme.continues token.kind slice c = false)) :
    ∃ inner : Cursor, inner.finish = cursor.finish ∧ last = inner.followedBy more ∧
      Rounds token? (cursor.followedBy other) tokens (inner.followedBy other) := by
  generalize start : cursor.followedBy more = first at run
  induction run generalizing cursor with
  | none _ => exact ⟨cursor, rfl, start.symm, .none _⟩
  | @more first next last token tokens read later inductionHypothesis =>
    subst start
    obtain ⟨stops, ended⟩ := inside token List.mem_cons_self
    obtain ⟨middle, sameFinish, rfl, readOther⟩ := token?_refollowed read stops ended
    have insideLater : ∀ token ∈ tokens, token.stop ≤ middle.finish ∧
        (token.stop = middle.finish → ∀ slice, Lexeme.Spells token.kind slice token.value →
          ∀ c ∈ other.head?, Lexeme.continues token.kind slice c = false) := by
      rw [sameFinish]
      exact fun token isLater => inside token (List.mem_cons_of_mem _ isLater)
    obtain ⟨inner, innerFinish, rfl, runOther⟩ := inductionHypothesis insideLater rfl
    exact ⟨inner, innerFinish.trans sameFinish, rfl, .more readOther runOther⟩

/-- The line feed behind a text is read as such if only a gap is left in front of it. -/
theorem gap_of_lineFeed {cursor next : Cursor} {feed : Token} {more : List Char}
    (read : token? (cursor.followedBy ('\n' :: more)) = .ok (some feed) next)
    (isFeed : feed.kind = .newline) (place : feed.start.offset = cursor.finish) :
    (∀ c ∈ cursor.rest, Lexeme.isGap c = true) ∧
      feed.start = cursor.location.after cursor.rest ∧ next.rest = more := by
  obtain ⟨gap, slice, behind, ahead, blank, spelled, -, -, start, -, rfl⟩ :=
    token?_eq_some_iff.mp read
  obtain rfl := spelled.slice_of_newline isFeed
  have length : gap.length = cursor.rest.length := by
    have offset : feed.start.offset = cursor.location.offset + gap.length := by
      rw [start, Location.offset_after]
      rfl
    unfold Cursor.finish at place
    omega
  obtain ⟨rest, behindFeed⟩ := List.append_inj (show cursor.rest ++ '\n' :: more = _ from ahead)
    length.symm
  have skipped := Cursor.skip_length ahead
  have left : ((cursor.followedBy ('\n' :: more)).skip gap.length).rest = ['\n'] ++ behind := by
    rw [skipped]
  refine ⟨rest ▸ blank, ?_, ?_⟩
  · rw [start, rest]
    rfl
  · rw [Cursor.skip_length left]
    exact (List.cons.inj behindFeed).2.symm

/-- Behind a gap and a blank two slashes begin a comment, which ends in front of the line feed. -/
theorem token?_remark {cursor : Cursor} {note : List Char} {feed : Token}
    (blank : ∀ c ∈ cursor.rest, Lexeme.isGap c = true)
    (place : feed.start = cursor.location.after cursor.rest) (within : '\n' ∉ note)
    (more : List Char) :
    ∃ next, next.rest = '\n' :: more ∧
      token? (cursor.followedBy (remarkText note ++ '\n' :: more)) =
        .ok (some (feed.remark note)) next := by
  let gap := cursor.rest ++ [' ']
  let slice := '/' :: '/' :: ' ' :: note
  have ahead : (cursor.followedBy (remarkText note ++ '\n' :: more)).rest =
      gap ++ (slice ++ '\n' :: more) := by simp [Cursor.followedBy, remarkText, gap, slice]
  have skipped := Cursor.skip_length ahead
  have rest : ((cursor.followedBy (remarkText note ++ '\n' :: more)).skip gap.length).rest =
      slice ++ '\n' :: more := by rw [skipped]
  refine ⟨_, ?_, token?_eq_some_iff.mpr
    ⟨gap, slice, '\n' :: more, ahead, ?_, ?_, ?_, ?_, ?_, ?_, rfl⟩⟩
  · rw [Cursor.skip_length rest]
  · intro c inGap
    rcases List.mem_append.mp inGap with inRest | isBlank
    · exact blank c inRest
    · rw [List.mem_singleton.mp isBlank]
      rfl
  · exact .lineComment (by simpa using within)
  · intro _ _
    have last : ((cursor.followedBy (remarkText note ++ '\n' :: more)).skip gap.length).last? =
        some ' ' := by
      rw [skipped]
      simp [Cursor.last?, gap]
    simp [last, Token.remark]
  · intro next first
    cases first
    exact Lexeme.continues_lineFeed _ _
  · rw [Location.after_append, Token.remark, place]
    rfl
  · rfl

end Scan

/-- Below a line feed the rest of a text is read as if the text began with the line feed. -/
theorem tokenize_below {first second : List Char} {cursor last state : Cursor}
    {tokens later : List Token} {fault : Option SyntaxError}
    (run : Rounds Scan.token? (Cursor.ofText (first ++ '\n' :: second)) tokens cursor)
    (rest : cursor.rest = second)
    (below : Rounds Scan.token? ((Cursor.ofText ('\n' :: second)).skip 1) later last)
    (ended : Scan.token? last = roundEnd fault state) :
    tokenize (first ++ '\n' :: second) =
      match fault with
      | none => .ok (tokens ++
          (later ++ [Token.finish state.location]).map (Displacement.below first).token)
      | some fault => .error ((Displacement.below first).fault fault) := by
  obtain ⟨placed, sameText⟩ := Scan.placed_of_rounds run (Cursor.placed_ofText _)
  exact tokenize_of_displaced run (placed.displaced_below sameText rest) below ended

/-- A line feed that is a token splits the text in front of it. -/
theorem exists_split_of_lineFeed {text : List Char} {tokens : List Token} {feed : Token}
    (read : tokenize text = .ok tokens) (isToken : feed ∈ tokens) (isFeed : feed.kind = .newline) :
    ∃ head tail, text = head ++ '\n' :: tail ∧ head.length = feed.start.offset := by
  have tiling := tokenize_tiles read
  have goesOn : feed.kind ≠ .endOfText := by simp [isFeed]
  obtain ⟨filled, bounded⟩ := tiling.filled feed isToken goesOn
  have slice : sliceOf text feed.start.offset feed.stop = ['\n'] :=
    (tiling.spelled feed isToken goesOn).slice_of_newline isFeed
  refine ⟨text.take feed.start.offset, text.drop (feed.start.offset + 1), ?_, ?_⟩
  · have drop : text.drop feed.start.offset = '\n' :: text.drop (feed.start.offset + 1) := by
      rw [← List.drop_drop]
      cases behind : text.drop feed.start.offset with
      | nil =>
        have length := congrArg List.length behind
        simp only [List.length_drop, List.length_nil] at length
        omega
      | cons c rest =>
        rw [sliceOf, behind] at slice
        obtain ⟨more, length⟩ : ∃ more, feed.stop - feed.start.offset = more + 1 :=
          ⟨feed.stop - feed.start.offset - 1, by omega⟩
        rw [length, List.take_succ_cons] at slice
        rw [(List.cons.inj slice).1]
        rfl
    rw [← drop, List.take_append_drop]
  · rw [List.length_take]
    omega

/-- The scanner passes a line feed, and it passes a comment in front of the line feed, behind the
same tokens. -/
theorem exists_rounds_withRemark {head tail note : List Char} {before rest : List Token}
    {feed : Token} {last : Cursor}
    (run : Rounds Scan.token? (Cursor.ofText (head ++ '\n' :: tail)) (before ++ feed :: rest) last)
    (isFeed : feed.kind = .newline) (length : head.length = feed.start.offset)
    (inside : ∀ token ∈ before, token.stop ≤ head.length ∧
      (token.kind = .comment → token.stop ≠ head.length))
    (within : '\n' ∉ note) :
    ∃ (next behind : Cursor) (feedBehind : Token),
      Rounds Scan.token? (Cursor.ofText (head ++ '\n' :: tail)) (before ++ [feed]) next ∧
      next.rest = tail ∧ feedBehind.kind = .newline ∧
      Rounds Scan.token? (Cursor.ofText (head ++ remarkText note ++ '\n' :: tail))
        (before ++ [feed.remark note, feedBehind]) behind ∧
      behind.rest = tail := by
  obtain ⟨middle, runBefore, runFeed⟩ := run.exists_of_append
  cases runFeed with
  | @more _ next _ _ _ readFeed _ =>
    have finish : (Cursor.ofText head).finish = head.length := Nat.zero_add _
    have inHead : Rounds Scan.token? ((Cursor.ofText head).followedBy ('\n' :: tail)) before
        middle := runBefore
    have goesNot : ∀ token ∈ before, token.stop ≤ (Cursor.ofText head).finish ∧
        (token.stop = (Cursor.ofText head).finish → ∀ slice,
          Lexeme.Spells token.kind slice token.value →
          ∀ c ∈ (remarkText note ++ '\n' :: tail).head?,
            Lexeme.continues token.kind slice c = false) := by
      rw [finish]
      intro token isBefore
      refine ⟨(inside token isBefore).1, fun stops slice _ c isBlank => ?_⟩
      obtain rfl := Option.some.inj isBlank
      exact Lexeme.continues_blank
        (fun isComment => (inside token isBefore).2 isComment stops) slice
    obtain ⟨inner, innerFinish, rfl, otherBefore⟩ := Scan.rounds_refollowed inHead goesNot
    obtain ⟨blank, place, nextRest⟩ := Scan.gap_of_lineFeed readFeed isFeed
      (by rw [innerFinish, finish, length])
    obtain ⟨behindRemark, atFeed, readRemark⟩ := Scan.token?_remark blank place within tail
    obtain ⟨feedBehind, below, feedKind, atBelow, readBehind⟩ :=
      Scan.token?_lineFeed (show behindRemark.rest = [] ++ '\n' :: tail from atFeed) (by simp)
    have start : (Cursor.ofText head).followedBy (remarkText note ++ '\n' :: tail) =
        Cursor.ofText (head ++ remarkText note ++ '\n' :: tail) := by
      rw [List.append_assoc]
      rfl
    rw [start] at otherBefore
    exact ⟨next, below, feedBehind, runBefore.append (.single readFeed), nextRest, feedKind,
      otherBefore.append (.more readRemark (.single readBehind)), atBelow⟩

/-- With a comment in front of a line feed a text has one more token there. The tokens in front of
it stay the same, and those behind the line feed are displaced further. -/
theorem tokenize_withRemark {text note : List Char} {tokens : List Token} {feed : Token}
    (read : tokenize text = .ok tokens) (isToken : feed ∈ tokens) (isFeed : feed.kind = .newline)
    (ended : ∀ token ∈ tokens, token.kind = .comment → token.stop ≠ feed.start.offset)
    (within : '\n' ∉ note) :
    ∃ (head tail : List Char) (before later : List Token) (feedBehind : Token) (place : Location),
      text = head ++ '\n' :: tail ∧ head.length = feed.start.offset ∧
      tokens = before ++ feed ::
        (later ++ [Token.finish place]).map (Displacement.below head).token ∧
      feedBehind.kind = .newline ∧
      tokenize (withRemark text feed note) =
        .ok (before ++ feed.remark note :: feedBehind ::
          (later ++ [Token.finish place]).map
            (Displacement.below (head ++ remarkText note)).token) := by
  obtain ⟨head, tail, rfl, length⟩ := exists_split_of_lineFeed read isToken isFeed
  have ordered := (tokenize_tiles read).ordered
  have edited : withRemark (head ++ '\n' :: tail) feed note =
      head ++ remarkText note ++ '\n' :: tail := by
    rw [withRemark, ← length, List.take_left, List.drop_left]
  obtain ⟨others, last, run, -, rfl⟩ := exists_rounds_of_tokenize read
  have isOther : feed ∈ others := by
    rcases List.mem_append.mp isToken with isOther | isFinish
    · exact isOther
    · rw [List.mem_singleton.mp isFinish] at isFeed
      cases isFeed
  obtain ⟨before, rest, rfl⟩ := List.append_of_mem isOther
  have inside : ∀ token ∈ before, token.stop ≤ head.length ∧
      (token.kind = .comment → token.stop ≠ head.length) := by
    intro token isBefore
    rw [length]
    refine ⟨?_, ended token (by simp [isBefore])⟩
    rw [List.append_assoc, List.pairwise_append] at ordered
    exact ordered.2.2 token isBefore feed (by simp)
  obtain ⟨next, behind, feedBehind, passed, nextRest, feedKind, passedEdited, behindRest⟩ :=
    exists_rounds_withRemark run isFeed length inside within
  -- Both texts go on as the text that begins with the line feed.
  obtain ⟨later, finish, fault, state, runLater, laterEnd⟩ :=
    exists_rounds_token? ((Cursor.ofText ('\n' :: tail)).skip 1)
  have whole := tokenize_below passed nextRest runLater laterEnd
  have wholeEdited := tokenize_below passedEdited behindRest runLater laterEnd
  rw [read] at whole
  cases fault with
  | some fault => cases whole
  | none =>
    refine ⟨head, tail, before, later, feedBehind, state.location, rfl, length, ?_, feedKind, ?_⟩
    · simpa using whole
    · rw [edited, wholeEdited]
      simp

end ApiDescription
