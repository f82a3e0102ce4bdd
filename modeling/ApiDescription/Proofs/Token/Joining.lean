import ApiDescription.Proofs.Token.Movement

/-!
# Tokens of joined sources

Behind a line feed a scanner reads what it would read at the start of a text,
displaced by what precedes it; and before a line feed it reads what it would read
at the end of a text, because no lexeme goes on over one.
-/

namespace ApiDescription

/-- How far a text stands behind the start of another text that contains it. -/
structure Displacement where
  characters : Nat
  lines : Nat
  deriving DecidableEq, Repr

namespace Displacement

variable (moved : Displacement)

/-- A place in the text as a place in the text around it, if the text begins on a new line. -/
def location (place : Location) : Location :=
  ⟨place.offset + moved.characters, place.line + moved.lines, place.column⟩

/-- A token of the text as a token of the text around it. -/
def token (token : Token) : Token :=
  { token with start := moved.location token.start, stop := token.stop + moved.characters }

/-- A fault in the text as a fault in the text around it. -/
def fault (fault : SyntaxError) : SyntaxError := { fault with line := fault.line + moved.lines }

/-- Where the places of the text are found again in the text around it. -/
def movement : Movement := ⟨moved.characters, moved.lines, fun _ column => column⟩

/-- Places move alike with what follows them. -/
theorem location_after (place : Location) (text : List Char) :
    moved.location (place.after text) = (moved.location place).after text := by
  have next (place : Location) (c : Char) :
      moved.location (place.next c) = (moved.location place).next c := by
    unfold Location.next
    split <;> simp only [location, Nat.add_right_comm _ 1]
  induction text generalizing place with
  | nil => rfl
  | cons c text inductionHypothesis =>
    rw [Location.after_cons, inductionHypothesis, next, Location.after_cons]

/-- The displacement of a text behind another one and two line feeds. -/
def behind (text : List Char) : Displacement := ⟨text.length + 2, text.count '\n' + 2⟩

/-- How far lines stand below those of a text that ends with the line above them. -/
def below (text : List Char) : Displacement := ⟨text.length, text.count '\n'⟩

/-- Where a line starts the start of a text is displaced by what precedes it. -/
theorem location_below_start {text : List Char} (starts : ∀ c ∈ text.getLast?, c = '\n') :
    (below text).location .start = Location.start.after text := by
  obtain rfl | ⟨lines, c, rfl⟩ := text.eq_nil_or_concat
  · rfl
  · rw [List.concat_eq_append] at *
    obtain rfl := starts c (by simp)
    have offset : (Location.start.after lines).offset = lines.length := by
      rw [Location.offset_after]
      simp [Location.start]
    have line : (Location.start.after lines).line = 1 + lines.count '\n' :=
      Location.line_after .start lines
    have count : (lines ++ ['\n']).count '\n' = lines.count '\n' + 1 := List.count_append
    rw [Location.after_append]
    simp only [location, below, Location.after_cons, Location.after_nil, Location.next,
      ↓reduceIte, offset, line, count, List.length_append, List.length_singleton,
      Location.mk.injEq]
    simp only [Location.start]
    exact ⟨by omega, by omega, trivial⟩

/-- Two line feeds behind a text are displaced with it. -/
theorem below_feeds (text : List Char) : below (text ++ ['\n', '\n']) = behind text := by
  simp [below, behind]

end Displacement

namespace Cursor

/-- A cursor in a text with more characters at its end. -/
def followedBy (cursor : Cursor) (more : List Char) : Cursor :=
  { cursor with rest := cursor.rest ++ more }

/-- Movement inside a text does not depend on what follows the text. -/
theorem followedBy_skip (cursor : Cursor) (more : List Char) {count : Nat}
    (inside : count ≤ cursor.rest.length) :
    (cursor.followedBy more).skip count = (cursor.skip count).followedBy more := by
  simp only [followedBy, skip, List.take_append_of_le_length inside,
    List.drop_append_of_le_length inside]

/-- Two cursors in front of the same characters, one of them displaced, and either both
behind a colon or neither. -/
structure Displaced (moved : Displacement) (cursor other : Cursor) : Prop where
  rest : other.rest = cursor.rest
  scheme : other.last? = some ':' ↔ cursor.last? = some ':'
  location : other.location = moved.location cursor.location

/-- A displaced cursor is where the other one is found again. -/
theorem Displaced.moved {moved : Displacement} {cursor other : Cursor}
    (displaced : Displaced moved cursor other) : Moved moved.movement cursor other where
  rest := displaced.rest
  scheme := fun _ => displaced.scheme
  location := fun passed _ => by
    rw [displaced.location]
    exact (moved.location_after cursor.location passed).symm

/-- Where a line starts a cursor is displaced by the text in front of it. -/
theorem Placed.displaced_lineStart {cursor : Cursor} (placed : cursor.Placed)
    (starts : ∀ c ∈ cursor.last?, c = '\n') :
    (Cursor.ofText cursor.rest).Displaced (.below cursor.before.reverse) cursor := by
  refine ⟨rfl, ?_, ?_⟩
  · refine iff_of_false (fun isColon => ?_) (by simp [last?, ofText])
    cases starts ':' isColon
  · rw [placed, ← Displacement.location_below_start (by simpa [last?] using starts)]
    rfl

/-- Behind a text and two line feeds a cursor is displaced by that text. -/
theorem Placed.displaced_behind {cursor : Cursor} {first second : List Char}
    (placed : cursor.Placed) (text : cursor.text = first ++ '\n' :: '\n' :: second)
    (rest : cursor.rest = second) :
    (Cursor.ofText second).Displaced (.behind first) cursor := by
  have before : cursor.before.reverse = first ++ ['\n', '\n'] :=
    before_eq (by simp [text, rest])
  have last : cursor.last? = some '\n' := by
    rw [last?_eq, before]
    simp
  have displaced := placed.displaced_lineStart (by simp [last])
  rwa [rest, before, Displacement.below_feeds] at displaced

end Cursor

namespace Lexeme

/-- No lexeme goes on over a line feed that is not its own. -/
theorem continues_lineFeed (kind : Kind) (slice : List Char) :
    continues kind slice '\n' = false := by
  unfold continues
  split
  · decide
  · decide
  · decide
  · decide
  · decide
  · simp
  · rfl

end Lexeme

namespace Scan

/-- What is read before a line feed is what is read at the end of a text. -/
theorem token?_followedBy {cursor next : Cursor} {token : Token}
    (read : token? cursor = .ok (some token) next) (more : List Char) :
    token? (cursor.followedBy ('\n' :: more)) =
      .ok (some token) (next.followedBy ('\n' :: more)) := by
  obtain ⟨gap, slice, behind, ahead, blank, spelled, suits, stops, start, stop, rfl⟩ :=
    token?_eq_some_iff.mp read
  have gapInside : gap.length ≤ cursor.rest.length := by simp [ahead]
  have sliceInside : slice.length ≤ (cursor.skip gap.length).rest.length := by
    simp [Cursor.skip_length ahead]
  have gapSkip := cursor.followedBy_skip ('\n' :: more) gapInside
  refine token?_eq_some_iff.mpr ⟨gap, slice, behind ++ '\n' :: more,
    by simp [Cursor.followedBy, ahead], blank, spelled, ?_, ?_, start, stop, ?_⟩
  · rw [gapSkip]
    exact suits
  · intro next first
    cases behind with
    | nil =>
      cases first
      exact Lexeme.continues_lineFeed _ _
    | cons c behind => exact stops next first
  · rw [gapSkip, Cursor.followedBy_skip _ _ sliceInside]

/-- A run of the scanner stays the same before a line feed. -/
theorem rounds_followedBy {cursor last : Cursor} {tokens : List Token}
    (run : Rounds token? cursor tokens last) (more : List Char) :
    Rounds token? (cursor.followedBy ('\n' :: more)) tokens (last.followedBy ('\n' :: more)) := by
  induction run with
  | none cursor => exact .none _
  | more read _ inductionHypothesis =>
    exact .more (token?_followedBy read more) inductionHypothesis

/-- Behind a gap a line feed is a token of its own. -/
theorem token?_lineFeed {cursor : Cursor} {gap more : List Char}
    (ahead : cursor.rest = gap ++ '\n' :: more) (blank : ∀ c ∈ gap, Lexeme.isGap c = true) :
    ∃ feed next, feed.kind = .newline ∧ next.rest = more ∧
      token? cursor = .ok (some feed) next := by
  refine ⟨⟨.newline, "\\n", cursor.location.after gap, (cursor.location.after gap).offset + 1⟩,
    _, rfl, ?_,
    token?_eq_some_iff.mpr ⟨gap, ['\n'], more, ahead, blank, .newline, ?_, ?_, rfl, rfl, rfl⟩⟩
  · rw [Cursor.skip_length ahead]
    rfl
  · intro slash
    exact nomatch slash
  · intro next _
    rfl

end Scan

/-- Where a scanner has come to a displaced place, the rest of the tokens are displaced, and so is
the fault if there is one. -/
theorem tokenize_of_displaced {moved : Displacement} {text : List Char} {tokens later : List Token}
    {cursor other last state : Cursor} {fault : Option SyntaxError}
    (passed : Rounds Scan.token? (Cursor.ofText text) tokens cursor)
    (displaced : other.Displaced moved cursor) (run : Rounds Scan.token? other later last)
    (ended : Scan.token? last = roundEnd fault state) :
    tokenize text =
      match fault with
      | none => .ok (tokens ++ (later ++ [Token.finish state.location]).map moved.token)
      | some fault => .error (moved.fault fault) :=
  tokenize_of_moved passed rfl displaced.moved run ended

/-- Behind tokens that have been passed, those of a text that is found again there are displaced; so
are its faults. -/
theorem tokenize_of_displaced_text {moved : Displacement} {text second : List Char}
    {tokens : List Token} {cursor : Cursor}
    (passed : Rounds Scan.token? (Cursor.ofText text) tokens cursor)
    (displaced : (Cursor.ofText second).Displaced moved cursor) :
    tokenize text =
      match tokenize second with
      | .ok later => .ok (tokens ++ later.map moved.token)
      | .error fault => .error (moved.fault fault) := by
  obtain ⟨later, last, fault, state, run, ended⟩ := exists_rounds_token? (.ofText second)
  have whole := tokenize_of_displaced passed displaced run ended
  rw [tokenize_of_rounds run ended]
  cases fault <;> exact whole

/-- The scanner passes a text that can be read and the line feed behind it, and is then in front of
the second text, displaced by these lines. -/
theorem exists_rounds_line {first : List Char} {tokens : List Token}
    (read : tokenize first = .ok tokens) (second : List Char) :
    ∃ others finish feed cursor, tokens = others ++ [finish] ∧ feed.kind = .newline ∧
      Rounds Scan.token? (Cursor.ofText (first ++ '\n' :: second)) (others ++ [feed]) cursor ∧
      cursor.rest = second ∧
      (Cursor.ofText second).Displaced (.below (first ++ ['\n'])) cursor := by
  obtain ⟨others, last, run, blanks, rfl⟩ := exists_rounds_of_tokenize read
  have passed := Scan.rounds_followedBy run second
  have start : (Cursor.ofText first).followedBy ('\n' :: second) =
      Cursor.ofText (first ++ '\n' :: second) := rfl
  rw [start] at passed
  have ahead : (last.followedBy ('\n' :: second)).rest = last.rest ++ '\n' :: second := rfl
  obtain ⟨feed, cursor, feedKind, rest, readFeed⟩ := Scan.token?_lineFeed ahead blanks
  have whole := passed.append (.single readFeed)
  obtain ⟨placed, text⟩ := Scan.placed_of_rounds whole (Cursor.placed_ofText _)
  have before : cursor.before.reverse = first ++ ['\n'] := by
    apply Cursor.before_eq
    rw [text, rest]
    simp [Cursor.text, Cursor.ofText]
  have lastFeed : cursor.last? = some '\n' := by
    rw [Cursor.last?_eq, before, List.getLast?_concat]
  have displaced := placed.displaced_lineStart (by simp [lastFeed])
  rw [rest, before] at displaced
  exact ⟨others, _, feed, cursor, rfl, feedKind, whole, rest, displaced⟩

/-- The tokens of two sources with a line feed between them are those of the first up to its end,
the line feed, and those of the second, displaced; so are its faults. -/
theorem tokenize_line {first : List Char} {tokens : List Token}
    (read : tokenize first = .ok tokens) (second : List Char) :
    ∃ others finish feed, tokens = others ++ [finish] ∧ feed.kind = .newline ∧
      tokenize (first ++ '\n' :: second) =
        match tokenize second with
        | .ok later =>
          .ok (others ++ feed :: later.map (Displacement.below (first ++ ['\n'])).token)
        | .error fault => .error ((Displacement.below (first ++ ['\n'])).fault fault) := by
  obtain ⟨others, finish, feed, cursor, rfl, feedKind, passed, -, displaced⟩ :=
    exists_rounds_line read second
  refine ⟨others, finish, feed, rfl, feedKind, ?_⟩
  simpa using tokenize_of_displaced_text passed displaced

/-- The scanner passes a text that can be read and two line feeds behind it, and is then in
front of the second text, displaced by the first. -/
theorem exists_rounds_append {first : List Char} {tokens : List Token}
    (read : tokenize first = .ok tokens) (second : List Char) :
    ∃ others finish feed blank cursor, tokens = others ++ [finish] ∧
      feed.kind = .newline ∧ blank.kind = .newline ∧
      Rounds Scan.token? (Cursor.ofText (first ++ '\n' :: '\n' :: second))
        (others ++ [feed, blank]) cursor ∧
      (Cursor.ofText second).Displaced (.behind first) cursor := by
  obtain ⟨others, finish, feed, next, rfl, feedKind, passed, atBlank, -⟩ :=
    exists_rounds_line read ('\n' :: second)
  obtain ⟨blank, cursor, blankKind, rest, readBlank⟩ :=
    Scan.token?_lineFeed (show next.rest = [] ++ '\n' :: second from atBlank) (by simp)
  have whole : Rounds Scan.token? (Cursor.ofText (first ++ '\n' :: '\n' :: second))
      (others ++ [feed, blank]) cursor := by
    simpa using passed.append (.single readBlank)
  obtain ⟨placed, text⟩ := Scan.placed_of_rounds whole (Cursor.placed_ofText _)
  exact ⟨others, finish, feed, blank, cursor, rfl, feedKind, blankKind, whole,
    placed.displaced_behind text rest⟩

/-- The tokens of two sources with a blank line between them are those of the first up to its
end, two line feeds, and those of the second, displaced; so are its faults. -/
theorem tokenize_append {first : List Char} {tokens : List Token}
    (read : tokenize first = .ok tokens) (second : List Char) :
    ∃ others finish feed blank, tokens = others ++ [finish] ∧
      feed.kind = .newline ∧ blank.kind = .newline ∧
      tokenize (first ++ '\n' :: '\n' :: second) =
        match tokenize second with
        | .ok later => .ok (others ++ feed :: blank :: later.map (Displacement.behind first).token)
        | .error fault => .error ((Displacement.behind first).fault fault) := by
  obtain ⟨others, finish, feed, blank, cursor, rfl, feedKind, blankKind, passed, displaced⟩ :=
    exists_rounds_append read second
  refine ⟨others, finish, feed, blank, rfl, feedKind, blankKind, ?_⟩
  simpa using tokenize_of_displaced_text passed displaced

end ApiDescription
