import Mathlib.Data.List.Infix
import Mathlib.Data.List.TakeWhile
import ApiDescription.Proofs.Grammar.Advancing
import ApiDescription.Proofs.Grammar.TokenPlaces

/-!
# Docs and blank lines

Docs are told from the run of line feeds and comments in front of what they document: they are the
comments behind the last blank line of that run. A blank line is two line feeds in a row. The rule
goes through a run only once, with the docs so far and the number of line feeds since the last
comment; `docsOfRun_eq` says what it answers from any such state.

A place in a list of tokens is given by a position, as it is in faults. Every stream that commands
leave stands at a position of its tokens.
-/

namespace ApiDescription

namespace Stream

variable {tokens : List Token} {position : Nat}

/-- The stream over a list of tokens in front of the one at a position, up to the next end of text.
Where there is no token any more, the last one stands in for it. A rule that reads on to the end of
the stream says something about the tokens only if reading on stops there. -/
def startingAt (tokens : List Token) (position : Nat) : Stream where
  ahead := (tokens.drop position).takeWhile (·.kind ≠ .endOfText)
  finish := ((tokens.drop position).find? (·.kind = .endOfText)).getD
    (tokens.getLastD (Token.finish .start))
  position

/-- The token at the position comes next, or the last one. -/
theorem current_startingAt (tokens : List Token) (position : Nat) :
    (startingAt tokens position).current =
      tokens[position]?.getD (tokens.getLastD (Token.finish .start)) := by
  rw [← List.head?_drop]
  unfold current startingAt
  cases tokens.drop position with
  | nil => rfl
  | cons token rest =>
    by_cases ends : token.kind = .endOfText
    · simp [ends]
    · simp [ends]

/-- Behind tokens that are no end of text the stream stands at a later position. -/
theorem skip_startingAt {count : Nat} (inside : count ≤ (tokens.drop position).length)
    (goesOn : ∀ token ∈ (tokens.drop position).take count, token.kind ≠ .endOfText) :
    (startingAt tokens position).skip count = startingAt tokens (position + count) := by
  have length : ((tokens.drop position).take count).length = count := List.length_take_of_le inside
  have ahead : (startingAt tokens position).ahead = (tokens.drop position).take count ++
      (tokens.drop (position + count)).takeWhile (·.kind ≠ .endOfText) := by
    rw [← List.drop_drop, ← List.takeWhile_append_of_pos (by simpa using goesOn),
      List.take_append_drop]
    rfl
  have found : (tokens.drop position).find? (·.kind = .endOfText) =
      (tokens.drop (position + count)).find? (·.kind = .endOfText) := by
    rw [← List.take_append_drop count (tokens.drop position), List.find?_append,
      List.find?_eq_none.mpr (by simpa using goesOn), List.drop_drop, Option.none_or]
  rw [skip, ahead, List.drop_left' length, List.take_left' length, length]
  simp only [startingAt, found]

/-- A stream inside its tokens stands at its position among them. -/
theorem Within.eq_startingAt {others : List Token} {finish : Token} {stream : Stream}
    (within : stream.Within others finish)
    (goesOn : ∀ token ∈ others, token.kind ≠ .endOfText) (ends : finish.kind = .endOfText) :
    stream = startingAt (others ++ [finish]) stream.position := by
  have whole : (others ++ [finish]).drop stream.position = stream.ahead ++ [finish] := by
    rw [List.drop_append_of_le_length within.bounded, within.ahead]
  have aheadGoesOn := within.goesOn goesOn
  rw [startingAt, whole, takeWhile_append_finish aheadGoesOn ends,
    find?_append_finish aheadGoesOn ends, Option.getD_some, ← within.finish]

end Stream

/-- Whether a list of tokens begins with a line feed. -/
def beginsWithFeed (run : List Token) : Bool := run.head?.any (·.kind = .newline)

/-- Whether a list of tokens begins with a blank line, which is two line feeds in a row. -/
def beginsBlank (run : List Token) : Bool := beginsWithFeed run && beginsWithFeed run.tail

/-- Whether there is a blank line in a list of tokens. -/
def hasBlank (run : List Token) : Bool := run.tails.any beginsBlank

/-- The tokens behind the last blank line of a run, or all of them if it has none. -/
def behindBlank (run : List Token) : List Token :=
  ((run.tails.filter beginsBlank).getLast?.map (List.drop 2)).getD run

/-- The comments of a run that stand behind its last blank line. -/
def docsBehindBlank (run : List Token) : List Text :=
  ((behindBlank run).filter (·.kind = .comment)).map Token.text

/-- Line feeds with at least one blank line between them. -/
structure IsBlankGap (gap : List Token) : Prop where
  feeds : ∀ token ∈ gap, token.kind = .newline
  blank : 2 ≤ gap.length

/-- Whether the docs in front of a run are dropped in it: by a blank line of its own, or by one that
ends with its first token, if line feeds stand right in front of it. -/
def dropsDocs (run : List Token) (feeds : Nat) : Bool :=
  hasBlank run || (decide (feeds ≠ 0) && beginsWithFeed run)

section Run

variable {token : Token} {run : List Token}

theorem hasBlank_cons (token : Token) (run : List Token) :
    hasBlank (token :: run) = (beginsBlank (token :: run) || hasBlank run) := by
  simp [hasBlank]

/-- There is a blank line where one of the tails of a run begins with one. -/
theorem filter_tails_eq_nil_iff : run.tails.filter beginsBlank = [] ↔ hasBlank run = false := by
  rw [List.filter_eq_nil_iff]
  simp [hasBlank]

/-- Where there is no blank line, all tokens stand behind the last one. -/
theorem behindBlank_eq_self (none : hasBlank run = false) : behindBlank run = run := by
  rw [behindBlank, filter_tails_eq_nil_iff.mpr none]
  rfl

/-- What stands in front of a blank line is not behind the last one. -/
theorem behindBlank_cons_of_hasBlank (token : Token) (blank : hasBlank run = true) :
    behindBlank (token :: run) = behindBlank run := by
  have found : run.tails.filter beginsBlank ≠ [] := by
    rw [Ne, filter_tails_eq_nil_iff, blank]
    exact Bool.noConfusion
  obtain ⟨last, isLast⟩ := Option.ne_none_iff_exists'.mp (mt List.getLast?_eq_none_iff.mp found)
  have stillLast : ((token :: run).tails.filter beginsBlank).getLast? = some last := by
    rw [List.tails_cons, List.filter_cons]
    split
    · rw [List.getLast?_cons, isLast]
      rfl
    · exact isLast
  rw [behindBlank, behindBlank, isLast, stillLast]
  rfl

/-- Behind the blank line at the start of a run, if that is its last one. -/
theorem behindBlank_of_beginsBlank (begins : beginsBlank (token :: run) = true)
    (none : hasBlank run = false) : behindBlank (token :: run) = run.tail := by
  rw [behindBlank, List.tails_cons, List.filter_cons_of_pos begins,
    filter_tails_eq_nil_iff.mpr none]
  exact List.drop_one

/-- A comment is among the docs unless there is a blank line behind it. -/
theorem docsBehindBlank_comment (isComment : token.kind = .comment) :
    docsBehindBlank (token :: run) =
      (if hasBlank run then [] else [token.text]) ++ docsBehindBlank run := by
  cases blank : hasBlank run with
  | true =>
    rw [docsBehindBlank, behindBlank_cons_of_hasBlank token blank]
    rfl
  | false =>
    have none : hasBlank (token :: run) = false := by
      rw [hasBlank_cons, blank]
      simp [beginsBlank, beginsWithFeed, isComment]
    rw [docsBehindBlank, docsBehindBlank, behindBlank_eq_self none, behindBlank_eq_self blank,
      List.filter_cons_of_pos (by simpa using isComment)]
    rfl

/-- A line feed in front of a run does not change its docs: the comments behind it are those behind
the next token, too. -/
theorem docsBehindBlank_feed (isFeed : token.kind = .newline) :
    docsBehindBlank (token :: run) = docsBehindBlank run := by
  cases blank : hasBlank run with
  | true => rw [docsBehindBlank, behindBlank_cons_of_hasBlank token blank, docsBehindBlank]
  | false =>
    have noComment {feed : Token} (isFeed : feed.kind = .newline) (rest : List Token) :
        (feed :: rest).filter (·.kind = .comment) = rest.filter (·.kind = .comment) :=
      List.filter_cons_of_neg (by simp [isFeed])
    rw [docsBehindBlank, docsBehindBlank, behindBlank_eq_self blank]
    cases begins : beginsBlank (token :: run) with
    | false =>
      rw [behindBlank_eq_self (by rw [hasBlank_cons, begins, blank]; rfl), noComment isFeed]
    | true =>
      rw [behindBlank_of_beginsBlank begins blank]
      -- The run begins with the second line feed of the blank line.
      cases run with
      | nil => rfl
      | cons second rest =>
        have secondIsFeed : second.kind = .newline := by
          simpa [beginsBlank, beginsWithFeed, isFeed] using begins
        rw [noComment secondIsFeed]
        rfl

/-- The rule answers the comments behind the last blank line of a run, and in front of them the docs
so far unless the run drops these. The line feeds seen since the last comment matter only where the
run goes on with another one. -/
theorem docsOfRun_eq (spacing : ∀ token ∈ run, token.isSpacing = true) (docs : List Text)
    (feeds : Nat) :
    docsOfRun run docs feeds =
      (if dropsDocs run feeds then [] else docs.reverse) ++ docsBehindBlank run := by
  induction run generalizing docs feeds with
  | nil =>
    have keeps : dropsDocs [] feeds = false := by
      simp [dropsDocs, hasBlank, beginsBlank, beginsWithFeed]
    rw [docsOfRun, keeps]
    exact (List.append_nil _).symm
  | cons token run inductionHypothesis =>
    obtain ⟨isSpacing, laterSpacing⟩ := List.forall_mem_cons.mp spacing
    have later := inductionHypothesis laterSpacing
    rw [docsOfRun]
    by_cases isComment : token.kind = .comment
    · -- The comment is one of the docs so far, and only a blank line behind it drops them.
      have drops : dropsDocs (token :: run) feeds = hasBlank run := by
        simp [dropsDocs, hasBlank_cons, beginsBlank, beginsWithFeed, isComment]
      have laterDrops : dropsDocs run 0 = hasBlank run := by simp [dropsDocs]
      rw [if_pos isComment, later, docsBehindBlank_comment isComment, drops, laterDrops]
      split <;> simp
    · have isFeed := (Token.isSpacing_iff.mp isSpacing).resolve_right isComment
      rw [if_neg isComment, docsBehindBlank_feed isFeed]
      by_cases first : feeds = 0
      · have drops : dropsDocs (token :: run) feeds = dropsDocs run 1 := by
          simp [dropsDocs, hasBlank_cons, beginsBlank, beginsWithFeed, isFeed, first, Bool.or_comm]
        rw [if_pos first, later, drops]
      · -- This line feed ends a blank line, and the docs so far are dropped at once.
        have drops : dropsDocs (token :: run) feeds = true := by
          simp [dropsDocs, beginsWithFeed, isFeed, first]
        rw [if_neg first, later, drops]
        simp

/-- What stands in front of a gap with a blank line does not matter for the docs, nor does how long
the gap is. -/
theorem docsOfRun_gap {gap : List Token} (isGap : IsBlankGap gap) (front later : List Token) :
    docsOfRun (front ++ gap ++ later) [] 0 = docsOfRun later [] 0 := by
  obtain ⟨feeds, long⟩ := isGap
  rcases List.eq_nil_or_concat gap with rfl | ⟨shorter, blank, rfl⟩
  · simp at long
  rcases List.eq_nil_or_concat shorter with rfl | ⟨first, feed, rfl⟩
  · simp at long
  have feedKind : feed.kind = .newline := feeds feed (by simp)
  have blankKind : blank.kind = .newline := feeds blank (by simp)
  have split : front ++ (first.concat feed).concat blank ++ later =
      (front ++ first) ++ feed :: blank :: later := by
    simp
  rw [split]
  exact Rule.docsOfRun_blank feedKind blankKind _ _ _ _

end Run

section Positions

variable {tokens : List Token} {position : Nat}

/-- Behind the run of spacing at a position stands what is left when that run is taken away. -/
theorem drop_spacingAt (tokens : List Token) (position : Nat) :
    tokens.drop (position + (spacingAt tokens position).length) =
      (tokens.drop position).dropWhile Token.isSpacing := by
  have whole : tokens.drop position =
      spacingAt tokens position ++ (tokens.drop position).dropWhile Token.isSpacing :=
    List.takeWhile_append_dropWhile.symm
  rw [← List.drop_drop]
  exact (congrArg (List.drop _) whole).trans List.drop_left

/-- Where reading on stops, it does behind a run of spacing in front of a token that is none. -/
theorem not_isSpacing_behind (stops : TokenPlace.Stops ⟨tokens, position⟩) :
    (Stream.startingAt tokens (position + (spacingAt tokens position).length)).current.isSpacing =
      false := by
  have whole : tokens.drop position =
      spacingAt tokens position ++ (tokens.drop position).dropWhile Token.isSpacing :=
    List.takeWhile_append_dropWhile.symm
  obtain ⟨token, member, noSpacing⟩ := stops
  rw [Stream.current_startingAt, ← List.head?_drop, drop_spacingAt]
  have outside := List.head?_dropWhile_not Token.isSpacing (tokens.drop position)
  cases behind : ((tokens.drop position).dropWhile Token.isSpacing).head? with
  | none =>
    rw [List.head?_eq_none_iff.mp behind, List.append_nil] at whole
    have isLast : token ∈ tokens.getLast? := by
      refine Option.mem_toList.mp ((List.mem_append.mp member).resolve_left fun inside => ?_)
      rw [whole] at inside
      rw [List.mem_takeWhile_imp inside] at noSpacing
      cases noSpacing
    rw [List.getLastD_eq_getLast?, Option.mem_def.mp isLast]
    exact noSpacing
  | some token =>
    rw [behind] at outside
    simpa using outside

/-- The run of spacing ahead of a stream at a position is that of the tokens there: it stops in
front of the end of the text, too. -/
theorem takeWhile_ahead_startingAt (tokens : List Token) (position : Nat) :
    (Stream.startingAt tokens position).ahead.takeWhile Token.isSpacing =
      spacingAt tokens position := by
  rw [Stream.startingAt, List.takeWhile_takeWhile, spacingAt]
  congr 1
  funext token
  have goesOn : token.isSpacing = true → token.kind ≠ .endOfText := Token.kind_ne_endOfText
  simpa using goesOn

/-- The docs of a run that nothing precedes are its own. -/
theorem docsOfRun_spacingAt (tokens : List Token) (position : Nat) :
    docsOfRun (spacingAt tokens position) [] 0 = docsBehindBlank (spacingAt tokens position) := by
  have spacing : ∀ token ∈ spacingAt tokens position, token.isSpacing = true :=
    fun token => List.mem_takeWhile_imp
  rw [docsOfRun_eq spacing, List.reverse_nil, ite_self, List.nil_append]

/-- Docs are read at any position of any list of tokens: the run of spacing there is passed, and the
answer is what stands behind its last blank line. -/
theorem docs_startingAt (tokens : List Token) (position : Nat) :
    Rule.docs (.startingAt tokens position) =
      .ok (docsBehindBlank (spacingAt tokens position))
        (.startingAt tokens (position + (spacingAt tokens position).length)) := by
  have passed : (Stream.startingAt tokens position).skip (spacingAt tokens position).length =
      .startingAt tokens (position + (spacingAt tokens position).length) := by
    have inFront := List.takeWhile_prefix (l := tokens.drop position) Token.isSpacing
    apply Stream.skip_startingAt inFront.length_le
    intro token member
    rw [← List.prefix_iff_eq_take.mp inFront] at member
    exact Token.kind_ne_endOfText (List.mem_takeWhile_imp member)
  rw [Rule.docs_apply, takeWhile_ahead_startingAt]
  simp only [docsOfRun_spacingAt, passed]

/-- Docs are collected at a position of a list of tokens exactly if a token that is neither a line
feed nor a comment stands there or behind, or at the end of the list, as the end of the text does.
Then they are the comments of the run of line feeds and comments that stand behind its last two line
feeds in a row, and reading stops right behind the run. Where a run has a blank line, the docs are
therefore the same in front of every other run with the same words behind a blank line: neither the
comments before it matter nor how long the gap is. -/
theorem docs_eq_behindBlank (tokens : List Token) (position : Nat) :
    let run := spacingAt tokens position
    (∀ docs last, TokenPlace.Collects ⟨tokens, position⟩ docs last ↔
      TokenPlace.Stops ⟨tokens, position⟩ ∧ docs = docsBehindBlank run ∧
        last = ⟨tokens, position + run.length⟩) ∧
    (∀ finish ∈ tokens.getLast?, finish.kind = .endOfText →
      TokenPlace.Stops ⟨tokens, position⟩) ∧
    (TokenPlace.Stops ⟨tokens, position⟩ →
      Rule.docs (.startingAt tokens position) =
        .ok (docsBehindBlank run) (.startingAt tokens (position + run.length)) ∧
      (Stream.startingAt tokens (position + run.length)).current.isSpacing = false) ∧
    ∀ front gap later, run = front ++ gap ++ later → IsBlankGap gap →
      ∀ others place otherFront otherGap otherLater,
        spacingAt others place = otherFront ++ otherGap ++ otherLater → IsBlankGap otherGap →
        List.Forall₂ Token.SameWord later otherLater → TokenPlace.Stops ⟨others, place⟩ →
          TokenPlace.Collects ⟨others, place⟩ (docsBehindBlank run)
            ⟨others, place + (spacingAt others place).length⟩ ∧
          Rule.docs (.startingAt others place) = .ok (docsBehindBlank run)
            (.startingAt others (place + (spacingAt others place).length)) := by
  intro run
  refine ⟨fun docs last => ?_, fun finish => TokenPlace.stops_of_ends, fun stops => ?_, ?_⟩
  · rw [TokenPlace.collects_iff, docsOfRun_spacingAt]
  · exact ⟨docs_startingAt tokens position, not_isSpacing_behind stops⟩
  · intro front gap later split isGap others place otherFront otherGap otherLater otherSplit
      isOtherGap same stops
    have docs : docsBehindBlank (spacingAt others place) = docsBehindBlank run := by
      calc docsBehindBlank (spacingAt others place)
          = docsOfRun otherLater [] 0 := by
            rw [← docsOfRun_spacingAt, otherSplit, docsOfRun_gap isOtherGap]
        _ = docsOfRun later [] 0 := Rule.docsOfRun_congr same [] 0
        _ = docsBehindBlank run := by
            rw [← docsOfRun_spacingAt, ← docsOfRun_gap isGap front later, ← split]
    rw [TokenPlace.collects_iff, docsOfRun_spacingAt, docs_startingAt, docs]
    exact ⟨⟨stops, rfl, rfl⟩, rfl⟩

/-- A comment behind a blank line and another one that trails code and stands in front of a longer
gap. -/
theorem docs_eq_behindBlank_gap :
    let tokens := (tokenize "// a\n\n// b\n// c\ntype".toList).toOption.getD []
    let others := (tokenize "x // d\n\n\n\n// b\n// c\ninfo".toList).toOption.getD []
    let docs : List Text := [Text.ofString "// b", Text.ofString "// c"]
    ∃ front gap later otherFront otherGap otherLater,
      spacingAt tokens 0 = front ++ gap ++ later ∧ IsBlankGap gap ∧
      spacingAt others 1 = otherFront ++ otherGap ++ otherLater ∧ IsBlankGap otherGap ∧
      List.Forall₂ Token.SameWord later otherLater ∧
      TokenPlace.Collects ⟨tokens, 0⟩ docs ⟨tokens, 7⟩ ∧
      Rule.docs (.startingAt tokens 0) = .ok docs (.startingAt tokens 7) ∧
      (Stream.startingAt tokens 7).current.isSpacing = false ∧
      TokenPlace.Collects ⟨others, 1⟩ docs ⟨others, 10⟩ ∧
      Rule.docs (.startingAt others 1) = .ok docs (.startingAt others 10) := by
  intro tokens others docs
  have read : docsBehindBlank (spacingAt tokens 0) = docs := by decide +kernel
  have length : (spacingAt tokens 0).length = 7 := by decide +kernel
  have otherLength : (spacingAt others 1).length = 9 := by decide +kernel
  have split : spacingAt tokens 0 =
      tokens.take 1 ++ (tokens.drop 1).take 2 ++ (tokens.drop 3).take 4 := by decide +kernel
  have otherSplit : spacingAt others 1 =
      (others.drop 1).take 1 ++ (others.drop 2).take 4 ++ (others.drop 6).take 4 := by
    decide +kernel
  have isGap : IsBlankGap ((tokens.drop 1).take 2) := ⟨by decide +kernel, by decide +kernel⟩
  have isOtherGap : IsBlankGap ((others.drop 2).take 4) := ⟨by decide +kernel, by decide +kernel⟩
  have same : List.Forall₂ Token.SameWord ((tokens.drop 3).take 4) ((others.drop 6).take 4) := by
    have words : ∀ pair ∈ ((tokens.drop 3).take 4).zip ((others.drop 6).take 4),
        pair.2.kind = pair.1.kind ∧ pair.2.value = pair.1.value := by decide +kernel
    rw [List.forall₂_iff_zip]
    exact ⟨by decide +kernel, fun member => ⟨(words _ member).1, (words _ member).2⟩⟩
  have isLast : (⟨.endOfText, "", ⟨20, 5, 5⟩, 20⟩ : Token) ∈ tokens.getLast? := by decide +kernel
  have isOtherLast : (⟨.endOfText, "", ⟨24, 7, 5⟩, 24⟩ : Token) ∈ others.getLast? := by
    decide +kernel
  obtain ⟨collects, ends, reads, gaps⟩ := docs_eq_behindBlank tokens 0
  have stops := ends _ isLast rfl
  have otherStops := (docs_eq_behindBlank others 1).2.1 _ isOtherLast rfl
  have first := (collects _ _).mpr ⟨stops, rfl, rfl⟩
  have second := gaps _ _ _ split isGap others 1 _ _ _ otherSplit isOtherGap same otherStops
  have rule := reads stops
  rw [read, length] at first rule
  rw [read, otherLength] at second
  exact ⟨_, _, _, _, _, _, split, isGap, otherSplit, isOtherGap, same, first, rule.1, rule.2,
    second.1, second.2⟩

/-- Without the end of a text, docs need not be collected: behind a line feed at the end of a list
the same line feed is read for ever, and in a list without tokens nothing can be read. -/
theorem not_forall_collects :
    let feed : Token := ⟨.newline, "\\n", .start, 1⟩
    (¬∀ tokens position, ∃ docs, TokenPlace.Collects ⟨tokens, position⟩ docs
      ⟨tokens, position + (spacingAt tokens position).length⟩) ∧
    (∀ run last, Rounds TokenPlace.spacingRound ⟨[feed], 0⟩ run last →
      ∃ next, TokenPlace.spacingRound last = .ok (some feed) next) ∧
    TokenPlace.spacingRound ⟨[], 0⟩ = .error .noTokens ⟨[], 0⟩ := by
  intro feed
  refine ⟨fun claim => ?_, fun run last rounds => ?_, rfl⟩
  · obtain ⟨docs, collects⟩ := claim [feed] 0
    obtain ⟨token, member, noSpacing⟩ := (TokenPlace.collects_iff.mp collects).1
    obtain rfl : token = feed := by simpa using member
    cases noSpacing
  · have goesOn (position : Nat) : TokenPlace.spacingRound ⟨[feed], position⟩ =
        .ok (some feed) ⟨[feed], position + 1⟩ := by
      have here : [feed][position]?.or [feed].getLast? = some feed := by
        cases position <;> rfl
      rw [TokenPlace.spacingRound_of_current here]
      rfl
    suffices stays : last.tokens = [feed] by
      obtain ⟨tokens, position⟩ := last
      cases stays
      exact ⟨_, goesOn position⟩
    generalize start : TokenPlace.mk [feed] 0 = place at rounds
    replace start : place.tokens = [feed] := by rw [← start]
    induction rounds with
    | none _ => exact start
    | @more place next _ _ _ read _ inductionHypothesis =>
      obtain ⟨tokens, position⟩ := place
      cases start
      rw [goesOn] at read
      cases read
      exact inductionHypothesis rfl

end Positions

namespace Command

open Rule

/-- Docs may be asked for behind any commands: what they are follows from the run of spacing in front
of which the stream stands. -/
theorem run_docs_runAll {others : List Token} {finish : Token}
    (goesOn : ∀ token ∈ others, token.kind ≠ .endOfText) (ends : finish.kind = .endOfText)
    (source : Source) (commands : List Command) :
    let tokens := others ++ [finish]
    let position := (runAll source commands (.ofTokens tokens)).position
    let run := spacingAt tokens position
    Command.run source .docs (runAll source commands (.ofTokens tokens)) =
      (.ok (.texts (docsBehindBlank run)), .startingAt tokens (position + run.length)) := by
  intro tokens position run
  have start : Stream.ofTokens tokens = ⟨others, finish, 0⟩ := Stream.ofTokens_append goesOn ends
  have within : (runAll source commands (.ofTokens tokens)).Within others finish := by
    rw [start]
    exact within_runAll (.start others finish) ends commands
  have here : runAll source commands (.ofTokens tokens) = .startingAt tokens position :=
    within.eq_startingAt goesOn ends
  have read := docs_startingAt tokens position
  rw [← here] at read
  rw [run_of_rule_eq (show Command.rule source .docs = _ from rfl), read]

end Command

end ApiDescription
