import ApiDescription.Proofs.Token.Insertion

/-!
# Tokens of a text with a comment on lines of its own

A comment written where a line starts, with a line feed behind it, is two more tokens there. The
line feed in front of that place ends whatever stands before it, and behind the new line feed the
text goes on as at the start of a text: the tokens on both sides stay what they are, and those
behind are displaced further.
-/

namespace ApiDescription

/-- A comment: two slashes and the rest of a line, or what stands between two marks and does not
hold the second one. -/
inductive IsComment : List Char → Prop where
  | line {note : List Char} (within : '\n' ∉ note) : IsComment ('/' :: '/' :: note)
  | block {note : List Char} (unclosed : ¬['*', '/'] <:+: note) :
    IsComment ('/' :: '*' :: (note ++ ['*', '/']))

/-- A text with a comment and a line feed at some place. -/
def withCommentLine (text : List Char) (place : Nat) (comment : List Char) : List Char :=
  text.take place ++ (comment ++ '\n' :: text.drop place)

/-- A comment and a line feed between two texts. -/
theorem withCommentLine_append (head tail comment : List Char) :
    withCommentLine (head ++ tail) head.length comment =
      head ++ (comment ++ ['\n']) ++ tail := by
  rw [withCommentLine, List.take_left, List.drop_left]
  simp

/-- Lines start in front of a text and behind the line feeds that are tokens. -/
def LineStart (tokens : List Token) (place : Nat) : Prop :=
  place = 0 ∨ ∃ feed ∈ tokens, feed.kind = .newline ∧ feed.stop = place

namespace Lexeme

/-- A block comment is closed by the first mark that closes one. -/
theorem commentEnd?_of_unclosed {note : List Char} (unclosed : ¬['*', '/'] <:+: note) :
    commentEnd? (note ++ ['*', '/']) = some (note ++ ['*', '/']).length := by
  induction note with
  | nil => rfl
  | cons c note inductionHypothesis =>
    have later := inductionHypothesis fun inside => unclosed (List.infix_cons inside)
    have goesOn : commentEnd? (c :: (note ++ ['*', '/'])) =
        (commentEnd? (note ++ ['*', '/'])).map (· + 1) := by
      rw [commentEnd?]
      rintro rest rfl closed
      cases note with
      | nil => cases closed
      | cons d note =>
        obtain rfl := (List.cons.inj closed).1
        exact unclosed ⟨[], note, rfl⟩
    rw [List.cons_append, goesOn, later]
    rfl

/-- Comments are spelled as such. -/
theorem exists_spells_of_isComment {comment : List Char} (isComment : IsComment comment) :
    ∃ value, Spells .comment comment value := by
  cases isComment with
  | line within => exact ⟨_, .lineComment within⟩
  | block unclosed => exact ⟨_, .blockComment (commentEnd?_of_unclosed unclosed)⟩

end Lexeme

namespace Scan

/-- Along a run of the scanner lines only grow. -/
theorem line_le_of_rounds {cursor last : Cursor} {tokens : List Token}
    (run : Rounds token? cursor tokens last) :
    cursor.location.line ≤ last.location.line ∧
      ∀ token ∈ tokens,
        cursor.location.line ≤ token.start.line ∧ token.start.line ≤ last.location.line := by
  induction run with
  | none cursor => simp
  | @more cursor next last token tokens read _ inductionHypothesis =>
    obtain ⟨gap, slice, more, ahead, -, -, -, -, start, -, rfl⟩ := token?_eq_some_iff.mp read
    have rest : (cursor.skip gap.length).rest = slice ++ more := by
      rw [Cursor.skip_length ahead]
    have here : cursor.location.line ≤ token.start.line := by
      rw [start, Location.line_after]
      exact Nat.le_add_right ..
    have behind : token.start.line ≤
        ((cursor.skip gap.length).skip slice.length).location.line := by
      have place : (cursor.skip gap.length).location = token.start := by
        rw [Cursor.skip_length ahead, start]
      rw [Cursor.skip_length rest, Location.line_after, place]
      exact Nat.le_add_right ..
    obtain ⟨forward, inside⟩ := inductionHypothesis
    refine ⟨by omega, fun other isToken => ?_⟩
    rcases List.mem_cons.mp isToken with rfl | isLater
    · exact ⟨here, by omega⟩
    · have bounds := inside other isLater
      exact ⟨by omega, bounds.2⟩

/-- Where a line starts a comment and the line feed behind it are read as such. -/
theorem exists_rounds_comment {cursor : Cursor} {comment more : List Char}
    (isComment : IsComment comment) (starts : ∀ c ∈ cursor.last?, c = '\n')
    (ahead : cursor.rest = comment ++ '\n' :: more) :
    ∃ remark feed next, remark.kind = .comment ∧ feed.kind = .newline ∧ next.rest = more ∧
      next.last? = some '\n' ∧ Rounds token? cursor [remark, feed] next := by
  obtain ⟨value, spelled⟩ := Lexeme.exists_spells_of_isComment isComment
  let remark : Token :=
    ⟨.comment, value, cursor.location, cursor.location.offset + comment.length⟩
  have readRemark : token? cursor = .ok (some remark) (cursor.skip comment.length) := by
    refine token?_eq_some_iff.mpr ⟨[], comment, '\n' :: more, ahead, by simp, spelled, ?_, ?_, rfl,
      rfl, by simp⟩
    · intro _ _
      refine iff_of_true rfl fun isColon => ?_
      simp only [List.length_nil, Cursor.skip_zero] at isColon
      cases starts ':' isColon
    · intro next first
      cases first
      exact Lexeme.continues_lineFeed _ _
  have behind := Cursor.skip_length ahead
  let feed : Token := ⟨.newline, "\\n", (cursor.skip comment.length).location,
    (cursor.skip comment.length).location.offset + 1⟩
  have readFeed : token? (cursor.skip comment.length) =
      .ok (some feed) ((cursor.skip comment.length).skip 1) := by
    refine token?_eq_some_iff.mpr ⟨[], ['\n'], more, by rw [behind]; rfl, by simp, .newline, ?_, ?_,
      rfl, rfl, by simp⟩
    · exact fun slash => nomatch slash
    · exact fun _ _ => rfl
  refine ⟨remark, feed, (cursor.skip comment.length).skip 1, rfl, rfl, ?_, ?_,
    .more readRemark (.single readFeed)⟩
  · rw [behind]
    rfl
  · rw [behind]
    rfl

/-- Behind a line feed the next line starts. -/
theorem behind_lineFeed {cursor next : Cursor} {feed : Token}
    (read : token? cursor = .ok (some feed) next) (isFeed : feed.kind = .newline) :
    next.location.line = feed.start.line + 1 ∧ next.last? = some '\n' := by
  obtain ⟨gap, slice, more, ahead, -, spelled, -, -, start, -, rfl⟩ := token?_eq_some_iff.mp read
  obtain rfl := spelled.slice_of_newline isFeed
  have rest : (cursor.skip gap.length).rest = ['\n'] ++ more := by
    rw [Cursor.skip_length ahead]
  have place : (cursor.skip gap.length).location = feed.start := by
    rw [Cursor.skip_length ahead, start]
  refine ⟨?_, ?_⟩
  · rw [Cursor.skip_length rest, Location.line_after, place]
    rfl
  · rw [Cursor.skip_length rest]
    rfl

/-- A text is passed up to a place where a line starts. -/
theorem exists_rounds_of_lineStart {text : List Char} {tokens : List Token} {place : Nat}
    (read : tokenize text = .ok tokens) (starts : LineStart tokens place) :
    ∃ before cursor, Rounds token? (Cursor.ofText text) before cursor ∧
      cursor.location.offset = place ∧ (∀ c ∈ cursor.last?, c = '\n') ∧
      (∀ token ∈ before, token.start.line < cursor.location.line) ∧
      ∀ feed ∈ before.getLast?, feed.kind = .newline := by
  obtain ⟨others, last, run, -, rfl⟩ := exists_rounds_of_tokenize read
  rcases starts with rfl | ⟨feed, isToken, isFeed, rfl⟩
  · exact ⟨[], _, .none _, rfl, by simp [Cursor.last?, Cursor.ofText], by simp, by simp⟩
  · have isOther : feed ∈ others := by
      rcases List.mem_append.mp isToken with isOther | isFinish
      · exact isOther
      · rw [List.mem_singleton.mp isFinish] at isFeed
        cases isFeed
    obtain ⟨front, rest, rfl⟩ := List.append_of_mem isOther
    obtain ⟨middle, runFront, runFeed⟩ := run.exists_of_append
    cases runFeed with
    | @more _ next _ _ _ readFeed _ =>
      have placed := (placed_of_rounds runFront (Cursor.placed_ofText _)).1
      obtain ⟨offset, -⟩ := Tiles.of_round placed readFeed
      obtain ⟨line, last⟩ := behind_lineFeed readFeed isFeed
      have inFront := (line_le_of_rounds runFront).2
      have here := (line_le_of_rounds (.single readFeed)).2 feed List.mem_cons_self
      refine ⟨front ++ [feed], next, runFront.append (.single readFeed), offset, ?_, ?_, ?_⟩
      · simp [last]
      · intro token isBefore
        rcases List.mem_append.mp isBefore with isFront | isHere
        · have above := (inFront token isFront).2
          omega
        · rw [List.mem_singleton.mp isHere]
          omega
      · simp [isFeed]

end Scan

/-- The tokens around a comment on lines of its own, which is between two texts. Those of the text
behind it are displaced by what is in front of them. -/
structure CommentLine where
  head : List Char
  comment : List Char
  tail : List Char
  before : List Token
  remark : Token
  feed : Token
  /-- The tokens of the text behind the comment. -/
  later : List Token
  finish : Token
  isRemark : remark.kind = .comment
  isFeed : feed.kind = .newline
  ends : finish.kind = .endOfText
  endsLine : ∀ token ∈ before.getLast?, token.kind = .newline
  inFront : ∀ token ∈ before, token.kind ≠ .endOfText ∧ token.start.offset < token.stop ∧
    token.stop ≤ head.length
  above : ∀ token ∈ before, token.start.line ≤ head.count '\n'
  goesOn : ∀ token ∈ later, token.kind ≠ .endOfText
  below : ∀ token ∈ later ++ [finish], 1 ≤ token.start.line
  empty : tail = [] → later = []

namespace CommentLine

variable (line : CommentLine)

/-- What stands in front of the text behind the comment. -/
def lead : List Char := line.head ++ (line.comment ++ ['\n'])

/-- How the text behind the comment is displaced without the comment. -/
def moved : Displacement := .below line.head

/-- How the text behind the comment is displaced. -/
def further : Displacement := .below line.lead

/-- The tokens without those of the comment and its line feed. -/
def tokens : List Token := line.before ++ (line.later ++ [line.finish]).map line.moved.token

/-- The tokens with those of the comment and its line feed. -/
def edited : List Token :=
  line.before ++ line.remark :: line.feed :: (line.later ++ [line.finish]).map line.further.token

end CommentLine

/-- The token that ends where tokens end is the last one. -/
theorem Tiles.getLast?_of_stop {source : List Char} {start finish : Nat} {tokens : List Token}
    (tiles : Tiles source start tokens finish) {token : Token} (isToken : token ∈ tokens)
    (ends : token.stop = finish) : tokens.getLast? = some token := by
  obtain rfl | ⟨front, last, rfl⟩ := tokens.eq_nil_or_concat
  · cases isToken
  · rw [List.concat_eq_append] at *
    rcases List.mem_append.mp isToken with isFront | isLast
    · have ordered := (List.pairwise_append.mp tiles.ordered).2.2 token isFront last (by simp)
      have filled := (tiles.spelled last (by simp)).1
      have bounded := (tiles.bounded.2 last (by simp)).2
      omega
    · rw [List.mem_singleton.mp isLast]
      simp

/-- The tokens that the scanner passes lie in the text that it passes. -/
theorem inside_of_rounds {text : List Char} {tokens : List Token} {last : Cursor}
    (run : Rounds Scan.token? (Cursor.ofText text) tokens last) :
    ∀ token ∈ tokens, token.kind ≠ .endOfText ∧ token.start.offset < token.stop ∧
      token.stop ≤ last.before.length := by
  have tiles := Tiles.of_rounds run (Cursor.placed_ofText _)
  have placed := (Scan.placed_of_rounds run (Cursor.placed_ofText _)).1
  rw [placed.offset_eq] at tiles
  intro token isToken
  obtain ⟨filled, -, spelled⟩ := tiles.spelled token isToken
  exact ⟨spelled.ne_endOfText, filled, (tiles.bounded.2 token isToken).2⟩

/-- There are no tokens in a text without characters. -/
theorem eq_nil_of_rounds {text : List Char} {tokens : List Token} {last : Cursor}
    (run : Rounds Scan.token? (Cursor.ofText text) tokens last) (nothing : text = []) :
    tokens = [] := by
  have sameText := (Scan.placed_of_rounds run (Cursor.placed_ofText _)).2
  have passed : last.before = [] := by
    rw [nothing] at sameText
    simpa using (List.append_eq_nil_iff.mp sameText).1
  refine List.eq_nil_iff_forall_not_mem.mpr fun token isToken => ?_
  obtain ⟨-, filled, bounded⟩ := inside_of_rounds run token isToken
  rw [passed, List.length_nil] at bounded
  omega

/-- The tokens of a text stand on lines from the first one on. -/
theorem one_le_line_of_rounds {text : List Char} {tokens : List Token} {last state : Cursor}
    (run : Rounds Scan.token? (Cursor.ofText text) tokens last)
    (ended : Scan.token? last = .ok none state) :
    ∀ token ∈ tokens ++ [Token.finish state.location], 1 ≤ token.start.line := by
  obtain ⟨forward, inside⟩ := Scan.line_le_of_rounds run
  intro token isToken
  rcases List.mem_append.mp isToken with isToken | isFinish
  · exact (inside token isToken).1
  · obtain ⟨-, rfl⟩ := Scan.token?_eq_none_iff.mp ended
    have line := Location.line_after last.location (last.rest.take last.rest.length)
    rw [List.mem_singleton.mp isFinish]
    change 1 ≤ (last.location.after _).line
    rw [line]
    exact forward.trans (Nat.le_add_right ..)

/-- Up to some place a text is passed alike whatever follows there, unless the last token in front
of the place would go on. -/
theorem rounds_before {text kept tail other : List Char} {before : List Token}
    {cursor : Cursor} (run : Rounds Scan.token? (Cursor.ofText text) before cursor)
    (ahead : cursor.rest = kept ++ tail)
    (goesNot : ∀ token ∈ before.getLast?, token.stop = cursor.location.offset + kept.length →
      ∀ slice, Lexeme.Spells token.kind slice token.value →
        ∀ c ∈ other.head?, Lexeme.continues token.kind slice c = false) :
    Rounds Scan.token? (Cursor.ofText (cursor.before.reverse ++ (kept ++ other))) before
      { cursor with rest := kept ++ other } := by
  obtain ⟨placed, sameText⟩ := Scan.placed_of_rounds run (Cursor.placed_ofText _)
  have tiles := Tiles.of_rounds run (Cursor.placed_ofText _)
  let head := Cursor.ofText (cursor.before.reverse ++ kept)
  have finish : head.finish = cursor.location.offset + kept.length := by
    rw [placed.offset_eq]
    simp [head, Cursor.finish, Cursor.ofText, Location.start]
  have inHead : Rounds Scan.token? (head.followedBy tail) before cursor := by
    have whole : head.followedBy tail = Cursor.ofText text := by
      have text_eq : text = cursor.before.reverse ++ cursor.rest := sameText.symm
      rw [text_eq, ahead, ← List.append_assoc]
      rfl
    rwa [whole]
  have inside : ∀ token ∈ before, token.stop ≤ head.finish ∧ (token.stop = head.finish →
      ∀ slice, Lexeme.Spells token.kind slice token.value →
        ∀ c ∈ other.head?, Lexeme.continues token.kind slice c = false) := by
    rw [finish]
    intro token isBefore
    have bounded := (tiles.bounded.2 token isBefore).2
    refine ⟨by omega, fun ends => ?_⟩
    exact goesNot token (tiles.getLast?_of_stop isBefore (by omega)) ends
  obtain ⟨inner, -, sameCursor, otherBefore⟩ := Scan.rounds_refollowed inHead inside
  have rest : inner.rest = kept :=
    List.append_cancel_right ((congrArg Cursor.rest sameCursor).symm.trans ahead)
  subst sameCursor rest
  rw [← List.append_assoc]
  exact otherBefore

/-- Up to where a line starts a text is passed alike, whatever follows there. -/
theorem exists_rounds_before_line {text : List Char} {before : List Token} {cursor : Cursor}
    (run : Rounds Scan.token? (Cursor.ofText text) before cursor)
    (endsLine : ∀ feed ∈ before.getLast?, feed.kind = .newline) (other : List Char) :
    ∃ reached, Rounds Scan.token? (Cursor.ofText (cursor.before.reverse ++ other)) before reached ∧
      reached.rest = other ∧ reached.last? = cursor.last? := by
  refine ⟨_, rounds_before run (List.nil_append cursor.rest).symm ?_, rfl, rfl⟩
  intro feed isLast _ slice _ c _
  -- A line feed does not go on over what follows.
  rw [endsLine feed isLast]
  rfl

/-- The scanner passes a comment and a line feed where a line starts, and goes on as it goes on
without them. -/
theorem exists_rounds_withComment {text comment : List Char} {before : List Token}
    {cursor : Cursor} (run : Rounds Scan.token? (Cursor.ofText text) before cursor)
    (starts : ∀ c ∈ cursor.last?, c = '\n')
    (endsLine : ∀ feed ∈ before.getLast?, feed.kind = .newline) (isComment : IsComment comment) :
    ∃ remark feed next, remark.kind = .comment ∧ feed.kind = .newline ∧
      Rounds Scan.token?
        (Cursor.ofText (cursor.before.reverse ++ (comment ++ '\n' :: cursor.rest)))
        (before ++ [remark, feed]) next ∧
      (Cursor.ofText cursor.rest).Displaced
        (.below (cursor.before.reverse ++ (comment ++ ['\n']))) next := by
  obtain ⟨reached, passed, atComment, sameLast⟩ :=
    exists_rounds_before_line run endsLine (comment ++ '\n' :: cursor.rest)
  obtain ⟨remark, feed, next, isRemark, isFeed, rest, last, behind⟩ :=
    Scan.exists_rounds_comment isComment (sameLast ▸ starts) atComment
  have whole := passed.append behind
  obtain ⟨placed, text⟩ := Scan.placed_of_rounds whole (Cursor.placed_ofText _)
  have lead : next.before.reverse = cursor.before.reverse ++ (comment ++ ['\n']) := by
    apply Cursor.before_eq
    rw [text, rest]
    simp [Cursor.text, Cursor.ofText]
  have displaced := placed.displaced_lineStart (by simp [last])
  rw [rest, lead] at displaced
  exact ⟨remark, feed, next, isRemark, isFeed, whole, displaced⟩

/-- With a comment where a line starts a text has two more tokens there. The tokens in front of
them stay the same, and those behind them are displaced further. -/
theorem tokenize_withCommentLine {text comment : List Char} {tokens : List Token} {place : Nat}
    (read : tokenize text = .ok tokens) (starts : LineStart tokens place)
    (isComment : IsComment comment) :
    ∃ line : CommentLine, text = line.head ++ line.tail ∧
      withCommentLine text place comment = line.lead ++ line.tail ∧ tokens = line.tokens ∧
      tokenize (line.lead ++ line.tail) = .ok line.edited := by
  obtain ⟨before, cursor, run, offset, startsLine, above, endsLine⟩ :=
    Scan.exists_rounds_of_lineStart read starts
  obtain ⟨placed, sameText⟩ := Scan.placed_of_rounds run (Cursor.placed_ofText _)
  obtain ⟨remark, feed, next, isRemark, isFeed, runEdited, displacedEdited⟩ :=
    exists_rounds_withComment run startsLine endsLine isComment
  -- Both texts go on as the text behind the place does.
  obtain ⟨later, last, fault, state, runLater, laterEnd⟩ :=
    exists_rounds_token? (.ofText cursor.rest)
  have whole := tokenize_of_displaced run (placed.displaced_lineStart startsLine) runLater laterEnd
  have wholeEdited := tokenize_of_displaced runEdited displacedEdited runLater laterEnd
  rw [read] at whole
  cases fault with
  | some fault => cases whole
  | none =>
    have length : cursor.before.reverse.length = place := by
      rw [placed.length_before, offset]
    have height : cursor.location.line = 1 + cursor.before.reverse.count '\n' := by
      rw [placed]
      exact Location.line_after .start _
    have text_eq : text = cursor.before.reverse ++ cursor.rest := sameText.symm
    let line : CommentLine :=
      { head := cursor.before.reverse, comment, tail := cursor.rest, before, remark, feed, later,
        finish := Token.finish state.location, isRemark, isFeed, ends := rfl, endsLine
        inFront := fun token isBefore => by simpa using inside_of_rounds run token isBefore
        above := fun token isBefore => by
          have isAbove := above token isBefore
          omega
        goesOn := fun token isLater => (inside_of_rounds runLater token isLater).1
        below := one_le_line_of_rounds runLater laterEnd
        empty := eq_nil_of_rounds runLater }
    have edited : withCommentLine text place comment = line.lead ++ line.tail := by
      have between := withCommentLine_append cursor.before.reverse cursor.rest comment
      rwa [length, ← text_eq] at between
    have lexed : tokenize (line.lead ++ line.tail) = .ok line.edited := by
      simpa [line, CommentLine.lead, CommentLine.edited, CommentLine.further] using wholeEdited
    exact ⟨line, text_eq, edited, Except.ok.inj whole, lexed⟩

end ApiDescription
