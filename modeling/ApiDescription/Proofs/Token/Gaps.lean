import ApiDescription.Proofs.Token.CommentLines
import ApiDescription.Proofs.Token.Values

/-!
# Tokens of a text with a wider gap

Characters that separate tokens may be written in front of any token. The tokens in front of them
stay as they are, because no lexeme goes on over such a character, and those behind them are moved.
Two things a token owes to what stands right in front of it: a line comment takes in what is
inserted behind it, and two slashes are no comment behind a colon. There is a third one: the byte
order mark separates tokens, but a path goes on over it.
-/

namespace ApiDescription

/-- A text with more characters at some place. -/
def withGap (text : List Char) (place : Nat) (gap : List Char) : List Char :=
  text.take place ++ (gap ++ text.drop place)

/-- Where places behind a gap are found again when it is wider: on the line of the gap as many
columns further on. -/
def Movement.behindGap (line width : Nat) : Movement :=
  ⟨width, 0, fun other column => if other = line then column + width else column⟩

namespace Token

/-- A comment up to the end of its line. -/
def IsLineComment (token : Token) : Prop :=
  token.kind = .comment ∧ ['/', '/'] <+: token.value.toList

instance : DecidablePred IsLineComment := fun _ => inferInstanceAs (Decidable (_ ∧ _))

/-- A path that would be a comment if there were no colon in front of it. -/
def IsAddress (token : Token) : Prop :=
  token.kind = .path ∧ ['/', '/'] <+: token.value.toList

instance : DecidablePred IsAddress := fun _ => inferInstanceAs (Decidable (_ ∧ _))

/-- A token that goes on over more characters as they stand. -/
def extended (token : Token) (more : List Char) : Token :=
  { token with value := token.value ++ String.ofList more, stop := token.stop + more.length }

end Token

namespace Movement

/-- Behind a gap places go on alike. -/
theorem behindGap_after {line : Nat} (width : Nat) {place : Location} (behind : line ≤ place.line)
    (text : List Char) :
    (behindGap line width).location (place.after text) =
      ((behindGap line width).location place).after text := by
  induction text generalizing place with
  | nil => rfl
  | cons c text inductionHypothesis =>
    have next : (behindGap line width).location (place.next c) =
        ((behindGap line width).location place).next c := by
      unfold Location.next
      split
      · have below : place.line + 1 ≠ line := by omega
        simp [location, behindGap, below, Nat.add_right_comm]
      · by_cases here : place.line = line <;>
          simp [location, behindGap, here, Nat.add_right_comm]
    have forward : line ≤ (place.next c).line := by
      unfold Location.next
      split
      · exact Nat.le_succ_of_le behind
      · exact behind
    rw [Location.after_cons, inductionHypothesis forward, next, Location.after_cons]

end Movement

namespace Location

/-- Characters without line feeds are columns. -/
theorem after_of_not_mem {text : List Char} (within : '\n' ∉ text) (place : Location) :
    place.after text =
      ⟨place.offset + text.length, place.line, place.column + text.length⟩ := by
  induction text generalizing place with
  | nil => rfl
  | cons c text inductionHypothesis =>
    rw [List.mem_cons, not_or] at within
    have step : place.next c = ⟨place.offset + 1, place.line, place.column + 1⟩ :=
      if_neg (Ne.symm within.1)
    rw [after_cons, step, inductionHypothesis within.2]
    simp only [List.length_cons, Location.mk.injEq]
    exact ⟨by omega, trivial, by omega⟩

end Location

namespace Cursor

/-- Behind a wider gap a cursor is where the one behind the gap is found again. -/
theorem Placed.moved_behindGap {cursor other : Cursor} {gap : List Char} (placed : cursor.Placed)
    (otherPlaced : other.Placed) (rest : other.rest = cursor.rest)
    (wider : other.before.reverse = cursor.before.reverse ++ gap) (wide : gap ≠ [])
    (blank : ∀ c ∈ gap, Lexeme.isGap c = true)
    (noScheme : ['/', '/'] <+: cursor.rest → cursor.last? ≠ some ':') :
    cursor.Moved (.behindGap cursor.location.line gap.length) other := by
  have place : other.location =
      (Movement.behindGap cursor.location.line gap.length).location cursor.location := by
    rw [otherPlaced, wider, Location.after_append, ← placed,
      Location.after_of_not_mem (Lexeme.not_mem_of_gap blank)]
    simp [Movement.location, Movement.behindGap]
  have last : other.last? ≠ some ':' := by
    intro isColon
    rw [last?_eq, wider, List.getLast?_append_of_ne_nil _ wide] at isColon
    exact absurd (blank ':' (List.mem_of_getLast? isColon)) (by decide)
  refine ⟨rest, fun slashes => iff_of_false last (noScheme slashes), fun passed _ => ?_⟩
  rw [place, Movement.behindGap_after _ (Nat.le_refl _)]

end Cursor

namespace Lexeme

/-- Of all lexemes only line comments go on over a gap, and paths over byte order marks. -/
theorem continues_gap {kind : Kind} {slice : List Char} {c : Char} (blank : isGap c = true)
    (noPath : kind = .path → c ≠ '\ufeff')
    (noComment : kind = .comment → slice[1]? ≠ some '/') : continues kind slice c = false := by
  have isBlank := isGap_iff.mp blank
  have outside {p : Char → Bool}
      (apart : [' ', '\t', '\r', '\x0c', '\ufeff'].all (!p ·) = true) : p c = false := by
    simpa using List.all_eq_true.mp apart c isBlank
  cases kind with
  | identifier | keyword _ | marker _ => exact outside (p := inIdentifier) (by decide +kernel)
  | number => exact outside (p := inNumber) (by decide +kernel)
  | path =>
    have apart : c ≠ '\ufeff' → inPath c = false := by
      simp only [List.mem_cons, List.not_mem_nil, or_false] at isBlank
      rcases isBlank with rfl | rfl | rfl | rfl | rfl <;> decide
    exact apart (noPath rfl)
  | comment => simp [continues, noComment rfl]
  | _ => rfl

/-- A path goes on over byte order marks. -/
theorem Spells.extended {slice marks : List Char} {value : String}
    (spelled : Spells .path slice value) (areMarks : ∀ c ∈ marks, c = '\ufeff') :
    Spells .path (slice ++ marks) (value ++ String.ofList marks) := by
  obtain ⟨rest, rfl, noStar, inside⟩ := spelled.slice_of_path rfl
  have whole : value ++ String.ofList marks = String.ofList ('/' :: (rest ++ marks)) := by
    rw [spelled.value_eq, ← String.ofList_append]
    rfl
  rw [whole]
  refine .path (fun c member => ?_) ?_
  · rcases List.mem_append.mp member with inRest | inMarks
    · exact inside c inRest
    · rw [areMarks c inMarks]
      decide
  · cases rest with
    | nil => exact fun first => absurd (areMarks '*' (List.mem_of_mem_head? first)) (by decide)
    | cons c rest => exact noStar

/-- With byte order marks at its end a path begins as before. -/
theorem Spells.suits_extended {slice marks : List Char} {value : String} {last? : Option Char}
    (spelled : Spells .path slice value) (suits : Suits last? .path slice)
    (areMarks : ∀ c ∈ marks, c = '\ufeff') : Suits last? .path (slice ++ marks) := by
  obtain ⟨rest, rfl, -, -⟩ := spelled.slice_of_path rfl
  intro _ second
  cases rest with
  | nil =>
    have isMark := areMarks '/' (List.mem_of_getElem? (i := 0) (by simpa using second))
    exact absurd isMark (by decide)
  | cons c rest => exact suits rfl (by simpa using second)

/-- The value of a line comment begins as the comment does. -/
theorem Spells.isLineComment {token : Token} {slice : List Char}
    (spelled : Spells token.kind slice token.value) (isComment : token.kind = .comment)
    (second : slice[1]? = some '/') : token.IsLineComment := by
  refine ⟨isComment, ?_⟩
  obtain ⟨body, rfl | rfl⟩ := spelled.slice_of_comment isComment
  · have kept : Text.dropEndWhile (· = '\r') ('/' :: '/' :: body) =
        '/' :: '/' :: Text.dropEndWhile (· = '\r') body := by
      rw [Text.dropEndWhile_cons (by decide), Text.dropEndWhile_cons (by decide)]
    rw [spelled.value_eq, isComment, valueOf, if_pos second, kept]
    exact ⟨_, String.toList_ofList.symm⟩
  · cases second

end Lexeme

namespace Scan

/-- Where in a gap a round begins does not matter. -/
theorem token?_skip_gap {cursor : Cursor} {gap more : List Char} (ahead : cursor.rest = gap ++ more)
    (blank : ∀ c ∈ gap, Lexeme.isGap c = true) :
    token? (cursor.skip gap.length) = token? cursor := by
  have length : Lexeme.countWhile Lexeme.isGap cursor.rest =
      gap.length + Lexeme.countWhile Lexeme.isGap more := by
    rw [ahead, Lexeme.countWhile, Lexeme.countWhile, List.takeWhile_append_of_pos blank,
      List.length_append]
  have rest : (cursor.skip gap.length).rest = more := by rw [Cursor.skip_length ahead]
  rw [token?_apply cursor, token?_apply, Cursor.skip_skip, rest, length]

/-- Behind a colon two slashes begin a path. -/
theorem isAddress_of_scheme {cursor next : Cursor} {token : Token}
    (read : token? cursor = .ok (some token) next) (slashes : ['/', '/'] <+: cursor.rest)
    (scheme : cursor.last? = some ':') : token.IsAddress := by
  obtain ⟨more, ahead⟩ := slashes
  have noGap : Lexeme.countWhile Lexeme.isGap cursor.rest = 0 := by
    rw [← ahead]
    rfl
  have path : Lexeme.read (some ':') '/' ('/' :: more) =
      .ok (Lexeme.asWritten (fun _ => .path) Lexeme.inPath ('/' :: '/' :: more)) :=
    Lexeme.read_path (fun _ => rfl) (by simp)
  rw [token?_apply, noGap, Cursor.skip_zero] at read
  simp only [← ahead, scheme, List.cons_append, List.nil_append, path, Lexeme.asWritten] at read
  cases read
  refine ⟨rfl, ?_⟩
  have inside : Lexeme.inPath '/' = true := by decide
  simp [inside]

end Scan

/-- A text that can be read is read up to the gap in front of a token, and from the token on. -/
theorem exists_rounds_at {text : List Char} {before after : List Token} {token : Token}
    (read : tokenize text = .ok (before ++ token :: after)) :
    ∃ (reached : Cursor) (gap : List Char) (start : Cursor) (later : List Token)
      (last state : Cursor),
      Rounds Scan.token? (Cursor.ofText text) before reached ∧
      reached.rest = gap ++ start.rest ∧ (∀ c ∈ gap, Lexeme.isGap c = true) ∧
      start = reached.skip gap.length ∧ start.location = token.start ∧
      Rounds Scan.token? start later last ∧ Scan.token? last = .ok none state ∧
      token :: after = later ++ [Token.finish state.location] ∧
      (['/', '/'] <+: start.rest → start.last? = some ':' → token.IsAddress) := by
  obtain ⟨others, last, run, blank, split⟩ := exists_rounds_of_tokenize read
  have ended : Scan.token? last = .ok none (last.skip last.rest.length) :=
    Scan.token?_eq_none_iff.mpr ⟨blank, rfl⟩
  obtain rfl | ⟨front, finish, rfl⟩ := after.eq_nil_or_concat
  · -- The token is the end of the text.
    obtain ⟨rfl, isFinish⟩ := List.append_inj' split rfl
    obtain rfl := List.singleton_inj.mp isFinish
    have skipped := Cursor.skip_length (List.append_nil last.rest).symm
    have nothing : (last.skip last.rest.length).rest = [] := by rw [skipped]
    refine ⟨last, last.rest, last.skip last.rest.length, [], _, last.skip last.rest.length, run,
      by rw [nothing, List.append_nil], blank, rfl, rfl, .none _, ?_, rfl, ?_⟩
    · rw [← ended]
      exact Scan.token?_skip_gap (List.append_nil last.rest).symm blank
    · intro slashes
      rw [nothing] at slashes
      cases List.prefix_nil.mp slashes
  · have both : (before ++ token :: front) ++ [finish] =
        others ++ [Token.finish (last.skip last.rest.length).location] := by simpa using split
    obtain ⟨rfl, isFinish⟩ := List.append_inj' both rfl
    rw [List.singleton_inj] at isFinish
    obtain ⟨reached, runBefore, runBehind⟩ := run.exists_of_append
    cases runBehind with
    | more readToken runLater =>
      obtain ⟨gap, slice, more, ahead, gapBlank, spelled, suits, stops, start, stop, rfl⟩ :=
        Scan.token?_eq_some_iff.mp readToken
      have skipped := Cursor.skip_length ahead
      have same := Scan.token?_skip_gap ahead gapBlank
      have rest : (reached.skip gap.length).rest = slice ++ more := by rw [skipped]
      refine ⟨reached, gap, reached.skip gap.length, token :: front, last, _, runBefore,
        by rw [rest, ahead], gapBlank, rfl, by rw [skipped, start], .more (same.trans readToken)
        runLater, ended, by simp [isFinish], fun slashes scheme => ?_⟩
      exact Scan.isAddress_of_scheme (same.trans readToken) slashes scheme

/-- Behind a gap that was made wider a text is read as before, moved. -/
theorem tokenize_behindGap {edited gap lead : List Char} {passed later : List Token}
    {start reached last state : Cursor} {place : Location} (placed : start.Placed)
    (atPlace : start.location = place)
    (noScheme : ['/', '/'] <+: start.rest → start.last? ≠ some ':')
    (run : Rounds Scan.token? start later last) (ended : Scan.token? last = .ok none state)
    (wide : gap ≠ []) (blank : ∀ c ∈ gap, Lexeme.isGap c = true)
    (text : edited = start.before.reverse ++ (gap ++ start.rest))
    (runEdited : Rounds Scan.token? (Cursor.ofText edited) passed reached)
    (ahead : reached.rest = lead ++ start.rest) (leadBlank : ∀ c ∈ lead, Lexeme.isGap c = true) :
    tokenize edited = .ok (passed ++ (later ++ [Token.finish state.location]).map
      (Movement.behindGap place.line gap.length).token) := by
  subst atPlace
  obtain ⟨reachedPlaced, sameText⟩ := Scan.placed_of_rounds runEdited (Cursor.placed_ofText _)
  have rest : (reached.skip lead.length).rest = start.rest := by rw [Cursor.skip_length ahead]
  have wider : (reached.skip lead.length).before.reverse = start.before.reverse ++ gap := by
    apply Cursor.before_eq
    rw [Cursor.text_skip, sameText, rest, List.append_assoc]
    exact text
  exact tokenize_of_moved runEdited (Scan.token?_skip_gap ahead leadBlank).symm
    (placed.moved_behindGap (reachedPlaced.skip _) rest wider wide blank noScheme) run
    (show _ = roundEnd none state from ended)

/-- In front of a token a text is passed alike with a wider gap, unless a comment or a path goes on
over it. -/
theorem rounds_withGap {text gap kept tail : List Char} {before : List Token} {reached : Cursor}
    (run : Rounds Scan.token? (Cursor.ofText text) before reached)
    (ahead : reached.rest = kept ++ tail) (wide : gap ≠ [])
    (blank : ∀ c ∈ gap, Lexeme.isGap c = true)
    (noComment : ∀ last ∈ before.getLast?, ¬last.IsLineComment)
    (noMark : gap.head? = some '\ufeff' → ∀ last ∈ before.getLast?, last.kind = .path →
      last.stop ≠ reached.location.offset + kept.length) :
    Rounds Scan.token? (Cursor.ofText (reached.before.reverse ++ (kept ++ (gap ++ tail)))) before
      { reached with rest := kept ++ (gap ++ tail) } := by
  refine rounds_before run ahead fun token isLast ends slice spelled c first => ?_
  rw [List.head?_append_of_ne_nil _ wide] at first
  apply Lexeme.continues_gap (blank c (List.mem_of_mem_head? first))
  · rintro isPath rfl
    exact noMark first token isLast isPath ends
  · exact fun isComment second => noComment token isLast (spelled.isLineComment isComment second)

/-- A path takes in the byte order marks that a gap behind it begins with. -/
theorem Scan.token?_extended {cursor next : Cursor} {path : Token}
    (read : token? cursor = .ok (some path) next) (isPath : path.kind = .path)
    {marks more : List Char} (areMarks : ∀ c ∈ marks, c = '\ufeff')
    (blank : ∀ c ∈ more, Lexeme.isGap c = true) (ended : ∀ c ∈ more.head?, c ≠ '\ufeff') :
    ∃ kept, cursor.rest = kept ++ next.rest ∧ kept ≠ [] ∧
      next.before.reverse = cursor.before.reverse ++ kept ∧
      ∃ behind, behind.rest = more ++ next.rest ∧
        token? { cursor with rest := kept ++ (marks ++ (more ++ next.rest)) } =
          .ok (some (path.extended marks)) behind := by
  obtain ⟨gap, slice, tail, whole, gapBlank, spelled, suits, stops, start, stop, rfl⟩ :=
    token?_eq_some_iff.mp read
  rw [isPath] at spelled suits stops
  have skipped := Cursor.skip_length whole
  have rest : (cursor.skip gap.length).rest = slice ++ tail := by rw [skipped]
  have passed := Cursor.skip_length rest
  rw [passed]
  let edited : Cursor := { cursor with rest := (gap ++ slice) ++ (marks ++ (more ++ tail)) }
  have aheadEdited : edited.rest = gap ++ ((slice ++ marks) ++ (more ++ tail)) := by simp [edited]
  have skippedEdited := Cursor.skip_length aheadEdited
  have restEdited : (edited.skip gap.length).rest = (slice ++ marks) ++ (more ++ tail) := by
    rw [skippedEdited]
  have spelledEdited := spelled.extended areMarks
  refine ⟨gap ++ slice, by simp [whole], by simp [spelled.ne_nil], by simp [skipped], _, ?_,
    token?_eq_some_iff.mpr ⟨gap, slice ++ marks, more ++ tail, aheadEdited, gapBlank, ?_, ?_, ?_,
      start, ?_, rfl⟩⟩
  · rw [Cursor.skip_length restEdited]
  · rwa [Token.extended, isPath]
  · have sameLast : (edited.skip gap.length).last? = (cursor.skip gap.length).last? := by
      rw [skippedEdited, skipped]
      rfl
    rw [sameLast, Token.extended, isPath]
    exact spelled.suits_extended suits areMarks
  · intro c first
    rw [Token.extended, isPath]
    cases more with
    | nil => exact stops c first
    | cons d more =>
      obtain rfl := Option.some.inj first
      exact Lexeme.continues_gap (blank d List.mem_cons_self) (fun _ => ended d rfl) nofun
  · simp only [Token.extended, stop, List.length_append]
    omega

/-- In front of a wider gap the last path takes in the byte order marks the gap begins with. -/
theorem exists_rounds_extended {text marks more : List Char} {front : List Token}
    {path : Token} {reached : Cursor}
    (run : Rounds Scan.token? (Cursor.ofText text) (front ++ [path]) reached)
    (isPath : path.kind = .path) (areMarks : ∀ c ∈ marks, c = '\ufeff')
    (blank : ∀ c ∈ more, Lexeme.isGap c = true) (ended : ∀ c ∈ more.head?, c ≠ '\ufeff') :
    ∃ next, next.rest = more ++ reached.rest ∧
      Rounds Scan.token?
        (Cursor.ofText (reached.before.reverse ++ (marks ++ (more ++ reached.rest))))
        (front ++ [path.extended marks]) next := by
  obtain ⟨middle, runFront, runPath⟩ := run.exists_of_append
  cases runPath with
  | more readPath atEnd =>
    cases atEnd
    obtain ⟨kept, ahead, some, lead, next, rest, readEdited⟩ :=
      Scan.token?_extended readPath isPath areMarks blank ended
    -- The tokens in front of the path end where it starts or before.
    have bounded := (Tiles.of_rounds runFront (Cursor.placed_ofText _)).bounded.2
    have positive := List.length_pos_iff.mpr some
    have runEdited := rounds_before runFront ahead fun token isLast ends slice spelled
        (c : Char) (_ : c ∈ (marks ++ (more ++ reached.rest)).head?) => by
      have inFront := (bounded token (List.mem_of_getLast? isLast)).2
      omega
    rw [← List.append_assoc, ← lead] at runEdited
    exact ⟨next, rest, runEdited.append (.single readEdited)⟩

/-- With a wider gap in front of a token a text has the same tokens. Those in front of the gap stay
as they are, and those behind it are moved. Only a path right in front of the place goes on over the
byte order marks that the gap begins with. -/
theorem tokenize_withGap {text gap : List Char} {before after : List Token} {token : Token}
    (read : tokenize text = .ok (before ++ token :: after)) (noAddress : ¬token.IsAddress)
    (noComment : ∀ last ∈ before.getLast?, ¬last.IsLineComment) (wide : gap ≠ [])
    (blank : ∀ c ∈ gap, c ∈ [' ', '\t', '\r', '\x0c', '\ufeff']) :
    ((gap.head? = some '\ufeff' → ∀ last ∈ before.getLast?, last.kind = .path →
        last.stop ≠ token.start.offset) →
      tokenize (withGap text token.start.offset gap) =
        .ok (before ++ (token :: after).map
          (Movement.behindGap token.start.line gap.length).token)) ∧
    ∀ front path, before = front ++ [path] → path.kind = .path →
      path.stop = token.start.offset →
      tokenize (withGap text token.start.offset gap) =
        .ok (front ++ path.extended (gap.takeWhile (· = '\ufeff')) :: (token :: after).map
          (Movement.behindGap token.start.line gap.length).token) := by
  obtain ⟨reached, kept, start, later, last, state, run, ahead, keptBlank, startEq, place,
    runBehind, ended, whole, address⟩ := exists_rounds_at read
  obtain ⟨placed, sameText⟩ := Scan.placed_of_rounds run (Cursor.placed_ofText _)
  have skipped := Cursor.skip_length ahead
  have startPlaced : start.Placed := startEq ▸ placed.skip _
  have lead : start.before.reverse = reached.before.reverse ++ kept := by
    rw [startEq, skipped]
    simp
  have offset : reached.location.offset + kept.length = token.start.offset := by
    rw [← place, startEq, skipped, Location.offset_after]
  have edited : withGap text token.start.offset gap =
      start.before.reverse ++ (gap ++ start.rest) := by
    have length : start.before.reverse.length = token.start.offset := by
      rw [List.length_reverse, ← startPlaced.offset_eq, place]
    have split : text = start.before.reverse ++ start.rest := by
      rw [lead, List.append_assoc, ← ahead]
      exact sameText.symm
    rw [withGap, ← length, split, List.take_left, List.drop_left]
  have isGap : ∀ c ∈ gap, Lexeme.isGap c = true := fun c member =>
    Lexeme.isGap_iff.mpr (blank c member)
  have noScheme : ['/', '/'] <+: start.rest → start.last? ≠ some ':' :=
    fun slashes scheme => noAddress (address slashes scheme)
  rw [whole]
  constructor
  · intro noMark
    have passed := rounds_withGap run ahead wide isGap noComment (offset ▸ noMark)
    rw [← List.append_assoc, ← lead, ← edited] at passed
    refine tokenize_behindGap startPlaced place noScheme runBehind ended wide isGap edited passed
      (List.append_assoc ..).symm fun c member => ?_
    rcases List.mem_append.mp member with inKept | inGap
    · exact keptBlank c inKept
    · exact isGap c inGap
  · rintro front path rfl isPath stop
    have nothing : kept = [] := by
      have bounded := (Tiles.of_rounds run (Cursor.placed_ofText _)).bounded.2 path (by simp)
      exact List.eq_nil_of_length_eq_zero (by omega)
    subst nothing
    have marks : ∀ c ∈ gap.takeWhile (· = '\ufeff'), c = '\ufeff' := fun c member => by
      simpa using List.mem_takeWhile_imp member
    have moreBlank : ∀ c ∈ gap.dropWhile (· = '\ufeff'), Lexeme.isGap c = true :=
      fun c member => isGap c ((List.dropWhile_suffix _).mem member)
    have moreEnded : ∀ c ∈ (gap.dropWhile (· = '\ufeff')).head?, c ≠ '\ufeff' := fun c first => by
      have stops := List.head?_dropWhile_not (· = '\ufeff') gap
      rw [Option.mem_def.mp first] at stops
      simpa using stops
    obtain ⟨next, rest, passed⟩ := exists_rounds_extended run isPath marks moreBlank moreEnded
    rw [List.nil_append] at ahead
    rw [List.append_nil] at lead
    rw [ahead] at rest
    rw [← List.append_assoc (gap.takeWhile _), List.takeWhile_append_dropWhile, ahead, ← lead,
      ← edited] at passed
    have behind := tokenize_behindGap startPlaced place noScheme runBehind ended wide isGap edited
      passed rest moreBlank
    rw [behind, List.append_assoc]
    rfl

/-- Behind a path a blank and a byte order mark are a gap. The other way round only the blank is. -/
theorem tokenize_withGap_path :
    let path : Token := ⟨.path, "/a", ⟨0, 1, 1⟩, 2⟩
    let opening : Token := ⟨.mark .leftParen, "(", ⟨2, 1, 3⟩, 3⟩
    let feed : Token := ⟨.newline, "\\n", ⟨3, 1, 4⟩, 4⟩
    let behind := (Movement.behindGap 1 2).token
    tokenize (withGap "/a(\n".toList 2 [' ', '\ufeff']) =
      .ok [path, behind opening, behind feed, behind (Token.finish ⟨4, 2, 1⟩)] ∧
    tokenize (withGap "/a(\n".toList 2 ['\ufeff', ' ']) =
      .ok [path.extended ['\ufeff'], behind opening, behind feed,
        behind (Token.finish ⟨4, 2, 1⟩)] := by
  intro path opening feed behind
  have read : tokenize "/a(\n".toList =
      .ok ([path] ++ opening :: [feed, Token.finish ⟨4, 2, 1⟩]) := by decide +kernel
  exact ⟨(tokenize_withGap read (by decide +kernel) (by decide +kernel) (by decide)
      (by simp)).1 (fun mark => absurd mark (by decide)),
    (tokenize_withGap read (by decide +kernel) (by decide +kernel) (by decide)
      (by simp)).2 [] path rfl rfl rfl⟩

/-- Not every run of characters that separate tokens leaves the tokens as they are: behind a path a
byte order mark is a part of the path. -/
theorem not_forall_tokenize_withGap :
    ¬∀ (text gap : List Char) (before after : List Token) (token : Token),
      tokenize text = .ok (before ++ token :: after) → ¬token.IsAddress →
      (∀ last ∈ before.getLast?, ¬last.IsLineComment) → gap ≠ [] →
      (∀ c ∈ gap, c ∈ [' ', '\t', '\r', '\x0c', '\ufeff']) →
      tokenize (withGap text token.start.offset gap) =
        .ok (before ++ (token :: after).map
          (Movement.behindGap token.start.line gap.length).token) := by
  intro unchanged
  have same := unchanged "/a\n".toList ['\ufeff'] [⟨.path, "/a", ⟨0, 1, 1⟩, 2⟩]
    [Token.finish ⟨3, 2, 1⟩] ⟨.newline, "\\n", ⟨2, 1, 3⟩, 3⟩ (by decide +kernel)
    (by decide +kernel) (by decide +kernel) (by decide) (by simp)
  revert same
  decide +kernel

end ApiDescription
