import ApiDescription.Proofs.Grammar.Mirroring

/-!
# Rules at the end of a text and before a line feed

A rule that succeeds on the tokens of a text reads the same from them when a line
feed and other tokens follow. As long as it stops before the end of the text, that
is because it has seen no more than the token it stops at. A rule that stops at the
end has only asked there whether its line is over or whether some token comes
next, and a line feed answers these questions alike; at most it has taken the line
feed as the end of its line. Docs and spacing are the exception: they would run on
into what follows. But behind them something has to come that the end of the text
is not.
-/

namespace ApiDescription

/-- What follows the tokens of a text: a line feed and other tokens. `Known` is what all tokens
of the text have in common. -/
structure Extension where
  feed : Token
  rest : List Token
  Known : Token → Prop
  isFeed : feed.kind = .newline

namespace Extension

variable (more : Extension) {α β : Type}

/-- A stream in a text, and the stream at the same token with more behind the text. -/
structure Before (stream other : Stream) : Prop where
  ended : stream.Ended
  ahead : other.ahead = stream.ahead ++ more.feed :: more.rest
  known : ∀ token ∈ stream.ahead, more.Known token

/-- The same, but where the text is at its end the line feed may have been taken. -/
def BehindLine (stream other : Stream) : Prop :=
  more.Before stream other ∨ (stream.Ended ∧ stream.ahead = [] ∧ other.ahead = more.rest)

/-- What a rule reads from a text, another one reads from the text with more behind it, and they
stop at streams that are related. -/
def Carries (after : Stream → Stream → Prop) (rule other : Rule α) : Prop :=
  ∀ stream longer value next, more.Before stream longer → rule stream = .ok value next →
    ∃ longerNext, other longer = .ok value longerNext ∧ after next longerNext

/-- The same for rules that may run on at the end of the text: they are only compared if they
stop before it. -/
def CarriesInside (rule other : Rule α) : Prop :=
  ∀ stream longer value next, more.Before stream longer → rule stream = .ok value next →
    next.ahead ≠ [] →
      ∃ longerNext, other longer = .ok value longerNext ∧ more.Before next longerNext

/-- A rule that asks for a token cannot succeed at the end of the text. -/
def FailsAtEnd (rule : Rule α) : Prop :=
  ∀ stream value next, stream.Ended → stream.ahead = [] → rule stream ≠ .ok value next

variable {more} {after : Stream → Stream → Prop}

/-- Both streams are in front of the same token, or the text is at its end and the longer one in
front of the line feed. -/
theorem Before.cases {stream longer : Stream} (before : more.Before stream longer) :
    (stream.ahead ≠ [] ∧ longer.current = stream.current ∧
        more.Before stream.next longer.next) ∨
      (stream.ahead = [] ∧ stream.current.kind = .endOfText ∧
        longer.current.kind = .newline) := by
  obtain ⟨ended, ahead, known⟩ := before
  cases tokens : stream.ahead with
  | nil =>
    rw [tokens, List.nil_append] at ahead
    refine .inr ⟨rfl, ?_, ?_⟩
    · rw [Stream.current_of_nil tokens]
      exact ended
    · rw [Stream.current_of_cons ahead]
      exact more.isFeed
  | cons token rest =>
    rw [tokens, List.cons_append] at ahead
    refine .inl ⟨by simp, ?_, ?_, ?_, ?_⟩
    · rw [Stream.current_of_cons ahead, Stream.current_of_cons tokens]
    · exact (congrArg Token.kind stream.finish_next).trans ended
    · rw [Stream.ahead_next ahead, Stream.ahead_next tokens]
    · rw [Stream.ahead_next tokens]
      exact fun found member => known found (by simp [tokens, member])

/-- Both streams are in step: where the text is at its end, no line goes on in the longer one. -/
theorem inStep : InStep (fun token found => found = token) more.Before where
  kind := congrArg Token.kind
  step before := by
    rcases before.cases with ⟨-, same, later⟩ | ⟨-, atEnd, feed⟩
    · exact .inl ⟨same, fun _ => later⟩
    · rw [atEnd, feed]
      exact .inr ⟨rfl, rfl, by decide⟩

/-- Movement inside the text keeps the streams in parallel. -/
theorem Before.skip {stream longer : Stream} (before : more.Before stream longer) {count : Nat}
    (inside : count ≤ stream.ahead.length) :
    more.Before (stream.skip count) (longer.skip count) := by
  refine ⟨before.ended, ?_, ?_⟩
  · simp only [Stream.skip, before.ahead, List.drop_append_of_le_length inside]
  · exact fun token member => before.known token (List.mem_of_mem_drop member)

/-- The leading tokens of a class that the line feed is not in. -/
theorem Before.takeWhile_ahead {stream longer : Stream} (before : more.Before stream longer)
    {p : Token → Bool} (stops : p more.feed = false) :
    longer.ahead.takeWhile p = stream.ahead.takeWhile p := by
  rw [before.ahead, List.takeWhile_append]
  split
  · next whole =>
    have all : stream.ahead.takeWhile p = stream.ahead :=
      (List.takeWhile_prefix p).eq_of_length whole
    rw [List.takeWhile_cons, stops, all]
    simp
  · rfl

/-- A text that is not at its end stays in parallel when its line ends. -/
theorem BehindLine.before {stream longer : Stream} (behind : more.BehindLine stream longer)
    (inside : stream.ahead ≠ []) : more.Before stream longer := by
  rcases behind with before | ⟨-, atEnd, -⟩
  · exact before
  · exact absurd atEnd inside

namespace FailsAtEnd

/-- Rules in turn fail at the end if the first one does. -/
theorem bind {first : Rule α} {second : α → Rule β} (fails : FailsAtEnd first) :
    FailsAtEnd (first >>= second) := by
  intro stream value next ended atEnd read
  obtain ⟨found, middle, readFirst, -⟩ := bind_eq_ok_iff.mp read
  exact fails stream found middle ended atEnd readFirst

/-- Rules in turn fail at the end if the first one stays there and the second one fails. -/
theorem bind_right {first : Rule α} {second : α → Rule β} (forward : Rule.Forward first)
    (fails : ∀ value, FailsAtEnd (second value)) : FailsAtEnd (first >>= second) := by
  intro stream value next ended atEnd read
  obtain ⟨found, middle, readFirst, readSecond⟩ := bind_eq_ok_iff.mp read
  obtain ⟨count, rfl⟩ := forward.of_ok ended readFirst
  exact fails found _ value next (ended.skip count) (by simp [Stream.skip, atEnd]) readSecond

/-- A rule that takes a token has none to take at the end. -/
theorem of_consumes {rule : Rule α} (consumes : Rule.Consumes rule) : FailsAtEnd rule := by
  intro stream value next ended atEnd read
  have fewer := consumes.fewer stream value next ended read
  simp [atEnd] at fewer

end FailsAtEnd

namespace Carries

/-- A rule that only answers. -/
theorem pure (value : α) : more.Carries more.Before (pure value) (pure value) := by
  intro stream longer answer next before read
  cases read
  exact ⟨longer, rfl, before⟩

/-- Rules that mirror each other and give the same answer. -/
theorem of_mirrors {rule other : Rule α} (mirrors : Mirrors more.Before after Eq rule other) :
    more.Carries after rule other := by
  intro stream longer value next before read
  obtain ⟨answer, longerNext, longerRead, rfl, related⟩ := mirrors _ _ _ _ before read
  exact ⟨longerNext, longerRead, related⟩

theorem mirrors {rule other : Rule α} (carries : more.Carries after rule other) :
    Mirrors more.Before after Eq rule other := by
  intro stream longer value next before read
  obtain ⟨longerNext, longerRead, related⟩ := carries _ _ _ _ before read
  exact ⟨value, longerNext, longerRead, rfl, related⟩

/-- Rules in turn. -/
theorem bind {first first' : Rule α} {second second' : α → Rule β}
    (earlier : more.Carries more.Before first first')
    (later : ∀ value, more.Carries after (second value) (second' value)) :
    more.Carries after (first >>= second) (first' >>= second') := by
  intro stream longer value next before read
  obtain ⟨found, middle, readFirst, readSecond⟩ := bind_eq_ok_iff.mp read
  obtain ⟨longerMiddle, longerFirst, middleBefore⟩ := earlier _ _ _ _ before readFirst
  obtain ⟨longerNext, longerSecond, related⟩ := later found _ _ _ _ middleBefore readSecond
  exact ⟨longerNext, bind_eq_ok_iff.mpr ⟨found, longerMiddle, longerFirst, longerSecond⟩, related⟩

/-- Answering behind a rule changes nothing about where it stops. -/
theorem answer {rule other : Rule α} (carries : more.Carries after rule other) (f : α → β) :
    more.Carries after (rule >>= fun value => Pure.pure (f value))
      (other >>= fun value => Pure.pure (f value)) := by
  intro stream longer value next before read
  obtain ⟨found, middle, readFirst, answered⟩ := bind_eq_ok_iff.mp read
  cases answered
  obtain ⟨longerNext, longerRead, related⟩ := carries _ _ _ _ before readFirst
  exact ⟨longerNext, bind_eq_ok_iff.mpr ⟨found, longerNext, longerRead, rfl⟩, related⟩

theorem ite {condition : Prop} [Decidable condition] {first second first' second' : Rule α}
    (yes : more.Carries after first first') (no : more.Carries after second second') :
    more.Carries after (if condition then first else second)
      (if condition then first' else second') := by
  split
  · exact yes
  · exact no

/-- Rules that keep in parallel are in parallel behind a line. -/
theorem line {rule other : Rule α} (carries : more.Carries more.Before rule other) :
    more.Carries more.BehindLine rule other := by
  intro stream longer value next before read
  obtain ⟨longerNext, longerRead, related⟩ := carries _ _ _ _ before read
  exact ⟨longerNext, longerRead, .inl related⟩

/-- Inside a text a line end makes no difference. -/
theorem inside {rule other : Rule α} (carries : more.Carries more.BehindLine rule other) :
    more.CarriesInside rule other := by
  intro stream longer value next before read goesOn
  obtain ⟨longerNext, longerRead, related⟩ := carries _ _ _ _ before read
  exact ⟨longerNext, longerRead, related.before goesOn⟩

end Carries

namespace CarriesInside

/-- What would run on at the end of the text does not if a token has to come behind it. -/
theorem bind {first first' : Rule α} {second second' : α → Rule β}
    (earlier : more.CarriesInside first first') (fails : ∀ value, FailsAtEnd (second value))
    (forward : Rule.Forward first)
    (later : ∀ value, more.Carries after (second value) (second' value)) :
    more.Carries after (first >>= second) (first' >>= second') := by
  intro stream longer value next before read
  obtain ⟨found, middle, readFirst, readSecond⟩ := bind_eq_ok_iff.mp read
  have middleEnded := (forward.length_le before.ended readFirst).2
  have goesOn : middle.ahead ≠ [] := fun atEnd =>
    fails found middle value next middleEnded atEnd readSecond
  obtain ⟨longerMiddle, longerFirst, middleBefore⟩ := earlier _ _ _ _ before readFirst goesOn
  obtain ⟨longerNext, longerSecond, related⟩ := later found _ _ _ _ middleBefore readSecond
  exact ⟨longerNext, bind_eq_ok_iff.mpr ⟨found, longerMiddle, longerFirst, longerSecond⟩, related⟩

/-- A rule in front of one that would run on. -/
theorem bind_right {first first' : Rule α} {second second' : α → Rule β}
    (earlier : more.Carries more.Before first first')
    (later : ∀ value, more.CarriesInside (second value) (second' value)) :
    more.CarriesInside (first >>= second) (first' >>= second') := by
  intro stream longer value next before read goesOn
  obtain ⟨found, middle, readFirst, readSecond⟩ := bind_eq_ok_iff.mp read
  obtain ⟨longerMiddle, longerFirst, middleBefore⟩ := earlier _ _ _ _ before readFirst
  obtain ⟨longerNext, longerSecond, related⟩ := later found _ _ _ _ middleBefore readSecond goesOn
  exact ⟨longerNext, bind_eq_ok_iff.mpr ⟨found, longerMiddle, longerFirst, longerSecond⟩, related⟩

/-- A loop that stops inside the text has all its rounds there. -/
theorem many {round other : Rule (Option α)} (forward : Rule.Forward round)
    (shrinks : ShrinksWithin Stream.Ended round) (carries : more.CarriesInside round other) :
    more.CarriesInside (many round) (many other) := by
  intro stream longer values next start read goesOn
  obtain ⟨last, run, ended⟩ := (many_eq_ok_iff shrinks start.ended).mp read
  obtain ⟨bounded, lastEnded⟩ := run.length_le shrinks start.ended
  have lastInside : 0 < remaining last :=
    Nat.lt_of_lt_of_le (List.length_pos_iff.mpr goesOn) (forward.length_le lastEnded ended).1
  have parallel : ∃ longerLast, Rounds other longer values longerLast ∧
      more.Before last longerLast := by
    clear read bounded ended
    induction run generalizing longer with
    | none stream => exact ⟨longer, .none longer, start⟩
    | @more stream middle last value values readItem later inductionHypothesis =>
      have middleEnded := (shrinks _ _ _ start.ended readItem).2
      have inside : middle.ahead ≠ [] := by
        have further := (later.length_le shrinks middleEnded).1
        exact List.length_pos_iff.mp (by simp only [remaining] at further lastInside ⊢; omega)
      obtain ⟨longerMiddle, longerItem, middleBefore⟩ := carries _ _ _ _ start readItem inside
      obtain ⟨longerLast, longerLater, lastBefore⟩ :=
        inductionHypothesis _ middleBefore lastEnded lastInside
      exact ⟨longerLast, .more longerItem longerLater, lastBefore⟩
  obtain ⟨longerLast, longerRun, lastBefore⟩ := parallel
  obtain ⟨longerNext, longerEnded, nextBefore⟩ := carries _ _ _ _ lastBefore ended goesOn
  refine ⟨longerNext, many_of_rounds longerRun longerEnded ?_, nextBefore⟩
  simp only [remaining, start.ahead, List.length_append] at bounded ⊢
  omega

/-- Answering behind a rule changes nothing about where it stops. -/
theorem answer {rule other : Rule α} (carries : more.CarriesInside rule other) (f : α → β) :
    more.CarriesInside (rule >>= fun value => Pure.pure (f value))
      (other >>= fun value => Pure.pure (f value)) := by
  intro stream longer value next before read goesOn
  obtain ⟨found, middle, readFirst, answered⟩ := bind_eq_ok_iff.mp read
  cases answered
  obtain ⟨longerNext, longerRead, related⟩ := carries _ _ _ _ before readFirst goesOn
  exact ⟨longerNext, bind_eq_ok_iff.mpr ⟨found, longerNext, longerRead, rfl⟩, related⟩

end CarriesInside

namespace Carries

theorem trailingComment (line : Nat) :
    more.Carries more.Before (Rule.trailingComment line) (Rule.trailingComment line) := by
  intro stream longer value next before read
  rw [Rule.trailingComment_apply] at read
  rw [Rule.trailingComment_apply]
  rcases before.cases with ⟨-, same, later⟩ | ⟨-, atEnd, feed⟩
  · rw [same]
    split at read
    · next holds =>
      cases read
      rw [if_pos holds]
      exact ⟨_, rfl, later⟩
    · next fails =>
      cases read
      rw [if_neg fails]
      exact ⟨_, rfl, before⟩
  · rw [if_neg (by simp [atEnd])] at read
    cases read
    rw [if_neg (by simp [feed])]
    exact ⟨_, rfl, before⟩

/-- The end of the text ends a line; so does the line feed, which is then taken. -/
theorem lineEnd : more.Carries more.BehindLine Rule.lineEnd Rule.lineEnd := by
  intro stream longer value next before read
  rw [Rule.lineEnd_apply] at read
  rw [Rule.lineEnd_apply]
  rcases before.cases with ⟨-, same, later⟩ | ⟨atEnd, kind, feed⟩
  · rw [same]
    split at read
    · next found =>
      cases read
      rw [if_pos found]
      exact ⟨_, rfl, .inl later⟩
    · next goesOn =>
      rw [if_neg goesOn]
      split at read
      · next closed =>
        cases read
        rw [if_pos closed]
        exact ⟨_, rfl, .inl before⟩
      · exact nomatch read
  · rw [if_pos feed]
    rw [kind, if_neg (by decide), if_pos (by decide)] at read
    cases read
    have ahead : longer.ahead = more.feed :: more.rest := by rw [before.ahead, atEnd]; rfl
    exact ⟨_, rfl, .inr ⟨before.ended, atEnd, Stream.ahead_next ahead⟩⟩

/-- The value of a property ends with its line or with the text. -/
theorem propertyValue {source other : List Char}
    (agrees : ∀ tokens, (∀ token ∈ tokens, more.Known token) →
      valueOfTokens other tokens = valueOfTokens source tokens) :
    more.Carries more.Before (Rule.propertyValue source) (Rule.propertyValue other) := by
  intro stream longer value next before read
  cases read
  have tokens := before.takeWhile_ahead (p := fun token => !token.endsValue)
    (by simp [Token.endsValue, more.isFeed])
  have known : ∀ token ∈ stream.ahead.takeWhile fun token => !token.endsValue,
      more.Known token :=
    fun token member => before.known token ((List.takeWhile_sublist _).subset member)
  refine ⟨_, ?_, before.skip (List.takeWhile_sublist _).length_le⟩
  simp only [Rule.propertyValue, tokens, agrees _ known]

/-- The line of a type is as long in both texts. -/
theorem mirrors_typeExpr (nested : ∀ depth,
      Mirrors more.Before more.Before Eq (Rule.typeWithin depth) (Rule.typeWithin depth)) :
    Mirrors more.Before more.Before Eq Rule.typeExpr Rule.typeExpr := by
  intro stream longer value next before read
  have length : Rule.lineLength longer = Rule.lineLength stream := by
    unfold Rule.lineLength
    rw [before.takeWhile_ahead (by simp [more.isFeed])]
  rw [Rule.typeExpr] at read ⊢
  rw [length]
  exact nested _ _ _ _ _ before read

end Carries

namespace CarriesInside

/-- What a rule sees of the next token before the end of the text. -/
theorem current : more.CarriesInside Rule.current Rule.current := by
  intro stream longer value next before read goesOn
  cases read
  rcases before.cases with ⟨-, same, -⟩ | ⟨atEnd, -⟩
  · exact ⟨longer, by rw [Rule.current_apply, same], before⟩
  · exact absurd atEnd goesOn

/-- A run of line feeds and comments that ends before the text does. -/
theorem spacing : more.CarriesInside Rule.spacing Rule.spacing := by
  intro stream longer value next before read goesOn
  cases read
  have bounded := (List.takeWhile_sublist (l := stream.ahead) Token.isSpacing).length_le
  have stops : (stream.ahead.takeWhile Token.isSpacing).length ≠ stream.ahead.length := by
    intro whole
    exact goesOn (by simp [Stream.skip, whole])
  have run : longer.ahead.takeWhile Token.isSpacing =
      stream.ahead.takeWhile Token.isSpacing := by
    rw [before.ahead, List.takeWhile_append, if_neg stops]
  exact ⟨_, by simp only [Rule.spacing, run], before.skip bounded⟩

theorem skipSpacing : more.CarriesInside Rule.skipSpacing Rule.skipSpacing := by
  rw [Rule.skipSpacing_eq]
  exact .answer .spacing _

theorem docs : more.CarriesInside Rule.docs Rule.docs :=
  .answer .spacing fun run => docsOfRun run [] 0

end CarriesInside

section Loops

variable {lead lead' : Rule β} {closing : Kind} {fault : SyntaxError.Cause}
  {item item' : β → Rule α}

/-- A loop between brackets cannot be ended by the end of the text. -/
theorem failsAtEnd_untilClosed (forward : Rule.Forward lead) (closes : closing ≠ .endOfText) :
    FailsAtEnd (Rule.untilClosed lead closing fault item) := by
  refine .bind_right forward fun led stream value next ended atEnd read => ?_
  have kind : stream.current.kind = .endOfText := by
    rw [Stream.current_of_nil atEnd]
    exact ended
  have answer : Rule.accepts closing stream = .ok false stream := by
    rw [Rule.accepts_apply, if_neg (by rw [kind]; exact closes.symm)]
  simp [bind_apply, answer, Rule.sees_apply, kind, Rule.fail_apply] at read

/-- A round of a loop between brackets ends behind the line of its item, or right behind the
closing bracket. -/
theorem carries_untilClosed (forward : Rule.Forward lead) (closes : closing ≠ .endOfText)
    (before : more.CarriesInside lead lead')
    (items : ∀ led, more.Carries more.BehindLine (item led) (item' led))
    {stream longer next : Stream} {found : Option α} (start : more.Before stream longer)
    (read : Rule.untilClosed lead closing fault item stream = .ok found next) :
    ∃ longerNext, Rule.untilClosed lead' closing fault item' longer = .ok found longerNext ∧
      more.BehindLine next longerNext ∧ (found = none → more.Before next longerNext) := by
  cases ahead : lead stream with
  | error failure middle =>
    rw [Rule.untilClosed_error ahead] at read
    exact nomatch read
  | ok led middle =>
    rw [Rule.untilClosed_apply ahead] at read
    have ended := (forward.length_le start.ended ahead).2
    have goesOn : middle.ahead ≠ [] := by
      intro atEnd
      have kind : middle.current.kind = .endOfText := by
        rw [Stream.current_of_nil atEnd]
        exact ended
      rw [if_neg (by rw [kind]; exact closes.symm), if_pos kind] at read
      exact nomatch read
    obtain ⟨longerMiddle, longerAhead, middleBefore⟩ := before _ _ _ _ start ahead goesOn
    obtain ⟨-, same, later⟩ := middleBefore.cases.resolve_right fun atEnd => goesOn atEnd.1
    rw [Rule.untilClosed_apply longerAhead, same]
    split at read
    · next closed =>
      cases read
      rw [if_pos closed]
      exact ⟨_, rfl, .inl later, fun _ => later⟩
    next open' =>
    rw [if_neg open']
    split at read
    · exact nomatch read
    next inText =>
    rw [if_neg inText]
    obtain ⟨longerNext, longerRead, behind⟩ :=
      (items led).answer some _ _ _ _ middleBefore read
    refine ⟨longerNext, longerRead, behind, fun none => ?_⟩
    obtain ⟨_, _, -, answered⟩ := bind_eq_ok_iff.mp read
    cases answered
    exact nomatch none

/-- A loop between brackets reads the same items and stops right behind the closing bracket. -/
theorem Carries.many_untilClosed (forward : Rule.Forward lead) (closes : closing ≠ .endOfText)
    (consumes : ∀ led, Rule.Consumes (item led)) (before : more.CarriesInside lead lead')
    (items : ∀ led, more.Carries more.BehindLine (item led) (item' led)) :
    more.Carries more.Before (many (Rule.untilClosed lead closing fault item))
      (many (Rule.untilClosed lead' closing fault item')) := by
  intro stream longer values next start read
  have shrinks : ShrinksWithin Stream.Ended (Rule.untilClosed lead closing fault item) :=
    Rule.shrinks_untilClosed forward consumes
  obtain ⟨last, run, closed⟩ := (many_eq_ok_iff shrinks start.ended).mp read
  have bounded := (run.length_le shrinks start.ended).1
  have parallel : ∃ longerLast,
      Rounds (Rule.untilClosed lead' closing fault item') longer values longerLast ∧
        more.Before last longerLast := by
    clear read bounded
    induction run generalizing longer with
    | none stream => exact ⟨longer, .none longer, start⟩
    | @more stream middle last value values readItem later inductionHypothesis =>
      obtain ⟨longerMiddle, longerItem, behind, -⟩ :=
        carries_untilClosed forward closes before items start readItem
      have middleEnded := (shrinks _ _ _ start.ended readItem).2
      -- The loop goes on from here, and it cannot at the end of the text.
      have goesOn : middle.ahead ≠ [] := by
        intro atEnd
        have fails : FailsAtEnd (Rule.untilClosed lead closing fault item) :=
          failsAtEnd_untilClosed forward closes
        cases later with
        | none _ => exact fails _ _ _ middleEnded atEnd closed
        | more readNext _ => exact fails _ _ _ middleEnded atEnd readNext
      obtain ⟨longerLast, longerLater, lastBefore⟩ :=
        inductionHypothesis _ (behind.before goesOn) closed
      exact ⟨longerLast, .more longerItem longerLater, lastBefore⟩
  obtain ⟨longerLast, longerRun, lastBefore⟩ := parallel
  obtain ⟨longerNext, longerClosed, -, nextBefore⟩ :=
    carries_untilClosed forward closes before items lastBefore closed
  refine ⟨longerNext, many_of_rounds longerRun longerClosed ?_, nextBefore rfl⟩
  simp only [remaining, start.ahead, List.length_append] at bounded ⊢
  omega

end Loops

/-- Readings of a text and of the text with more behind it, inside lines. -/
def simulation {source other : List Char}
    (agrees : ∀ tokens, (∀ token ∈ tokens, more.Known token) →
      valueOfTokens other tokens = valueOfTokens source tokens) : Simulation where
  source := source
  other := other
  Alike token found := found = token
  Relates _ _ same rule rule' := Mirrors more.Before more.Before same rule rule'
  kind := congrArg Token.kind
  value := congrArg Token.value
  counterpart token := ⟨token, rfl⟩
  pure := .pure
  bind := .bind
  fail _ := .fail _ _
  failAt _ _ := fun _ _ _ _ _ read => nomatch read
  seesAny := .seesAny inStep
  branch := .branch inStep
  typeExpr := Carries.mirrors_typeExpr
  propertyValue := (Carries.propertyValue agrees).mirrors
  items _ consumes _ related :=
    (Carries.many_untilClosed Rule.forward_skipSpacing Kind.noConfusion (fun _ => consumes)
      CarriesInside.skipSpacing fun _ => .line (.of_mirrors related)).mirrors.coarsen
      fun _ _ => forall₂_of_eq

variable (more) in
/-- Readings of what does not depend on the source. -/
def reading : Simulation := @simulation more [] [] fun _ _ => rfl

namespace Carries

theorem accepts {kind : Kind} (inLine : kind.isBreak = false) :
    more.Carries more.Before (Rule.accepts kind) (Rule.accepts kind) :=
  .of_mirrors (more.reading.accepts inLine)

theorem textIf {kind : Kind} (inLine : kind.isBreak = false) :
    more.Carries more.Before (Rule.textIf kind) (Rule.textIf kind) :=
  .of_mirrors (more.reading.textIf inLine)

theorem expect {kind : Kind} (inLine : kind.isBreak = false) :
    more.Carries more.Before (Rule.expect kind) (Rule.expect kind) :=
  .of_mirrors ((more.reading.expect inLine).coarsen fun _ _ => Eq.symm)

theorem expectName : more.Carries more.Before Rule.expectName Rule.expectName :=
  .of_mirrors (more.reading.expectName.coarsen fun _ _ => Eq.symm)

theorem typeExpr : more.Carries more.Before Rule.typeExpr Rule.typeExpr :=
  .of_mirrors (more.reading.typeExpr more.reading.typeWithin)

theorem member (docs : List Text) :
    more.Carries more.BehindLine (Rule.member docs) (Rule.member docs) := by
  have fails (first : Token) : FailsAtEnd (Rule.memberHead >>= fun head =>
      Rule.textIf .rawText >>= fun tag => Rule.trailingComment first.start.line >>= fun comment =>
        Rule.lineEnd >>= fun _ => (Pure.pure
          { name := head.1, type := head.2.1, tag, comment, docs,
            embedded := head.2.2 } : Rule Member)) :=
    .bind (.of_consumes Rule.consumes_memberHead)
  rw [Rule.member_eq]
  exact CarriesInside.current.bind fails .current fun first =>
    .bind (.of_mirrors more.reading.memberHead) fun _ =>
    .bind (.textIf rfl) fun _ => .bind (.trailingComment _) fun _ =>
      .answer .lineEnd _

theorem members : more.Carries more.Before Rule.members Rule.members := by
  rw [Rule.members, Rule.member?_eq]
  exact .many_untilClosed Rule.forward_docs (by decide) Rule.consumes_member .docs .member

theorem typeBody (docs : List Text) :
    more.Carries more.BehindLine (Rule.typeBody docs) (Rule.typeBody docs) :=
  .bind .expectName fun _ => .bind (.accepts rfl) fun _ => .ite
    (.bind (.expect rfl) fun _ => .line (.answer .members _))
    (.bind (.accepts rfl) fun _ => .ite
      (.line (.answer .members _))
      (.bind (.accepts rfl) fun _ => .bind .typeExpr fun _ =>
        .answer .lineEnd _))

theorem typeDecls (docs : List Text) :
    more.Carries more.BehindLine (Rule.typeDecls docs) (Rule.typeDecls docs) := by
  unfold Rule.typeDecls
  rw [Rule.groupedType?_eq]
  exact .bind (.expect rfl) fun _ => .bind (.accepts rfl) fun _ => .ite
    (.line (.many_untilClosed Rule.forward_docs (by decide) Rule.consumes_typeBody .docs .typeBody))
    (.answer (.typeBody docs) _)

theorem version : more.Carries more.BehindLine Rule.version Rule.version :=
  .bind (.expect rfl) fun _ => .bind (.expect rfl) fun _ =>
    .bind (.expect rfl) fun _ => .bind (.trailingComment _) fun _ => .answer .lineEnd _

theorem imports : more.Carries more.BehindLine Rule.imports Rule.imports := by
  have file : more.Carries more.Before Rule.importedFile Rule.importedFile :=
    .answer (.expect rfl) _
  unfold Rule.imports
  rw [Rule.groupedImport?_eq]
  exact .bind (.expect rfl) fun _ => .bind (.accepts rfl) fun _ => .ite
    (.line (.many_untilClosed Rule.forward_skipSpacing (by decide)
      (fun _ => Rule.consumes_importedFile) .skipSpacing fun _ => .line file))
    (.bind (.expect rfl) fun _ => .answer .lineEnd _)

theorem refuseIf {condition : Prop} [Decidable condition] (token : Token)
    (cause : SyntaxError.Cause) :
    more.Carries more.Before (Rule.refuseIf condition token cause)
      (Rule.refuseIf condition token cause) :=
  .ite (fun _ _ _ _ _ read => nomatch read) (.pure ())

/-- A rule behind the end of a line that only checks what was read. -/
theorem refuseIf_answer {condition : Prop} [Decidable condition] {rule other : Rule β}
    (carries : more.Carries after rule other) (token : Token) (cause : SyntaxError.Cause)
    (answer : α) :
    more.Carries after
      (rule >>= fun _ => Rule.refuseIf condition token cause >>= fun _ => Pure.pure answer)
      (other >>= fun _ => Rule.refuseIf condition token cause >>= fun _ => Pure.pure answer) := by
  unfold Rule.refuseIf
  by_cases holds : condition
  · intro stream longer value next _ read
    obtain ⟨_, _, -, refused⟩ := bind_eq_ok_iff.mp read
    rw [if_pos holds] at refused
    exact nomatch refused
  · simp only [if_neg holds]
    exact .answer carries _

theorem routeLine (notes : RouteNotes) (docs : List Text) :
    more.Carries more.BehindLine (Rule.routeLine notes docs) (Rule.routeLine notes docs) :=
  .bind .expectName fun _ => .bind (.refuseIf _ _) fun _ => .bind (.expect rfl) fun _ =>
    .bind (.of_mirrors (more.reading.bodyIf (more.reading.sees rfl))) fun _ =>
      .bind (.of_mirrors (more.reading.bodyIf (more.reading.accepts rfl))) fun _ =>
        .bind (.trailingComment _) fun _ => .refuseIf_answer .lineEnd _ _ _

end Carries

section Sources

variable {source other : List Char}
  (agrees : ∀ tokens, (∀ token ∈ tokens, more.Known token) →
    valueOfTokens other tokens = valueOfTokens source tokens)

include agrees

theorem Carries.noteBehind (found : Marker) :
    more.Carries more.Before (Rule.noteBehind source found) (Rule.noteBehind other found) :=
  .of_mirrors ((simulation agrees).noteBehind found)

theorem CarriesInside.routeNote? :
    more.CarriesInside (Rule.routeNote? source) (Rule.routeNote? other) := by
  intro stream longer value next before read goesOn
  rw [Rule.routeNote?_apply] at read ⊢
  rcases before.cases with ⟨-, same, later⟩ | ⟨ahead, atEnd, -⟩
  · rw [same]
    split at read
    · next found _ =>
      have behind : more.CarriesInside
          (Rule.noteBehind source found >>= fun note => Rule.skipSpacing >>= fun _ =>
            pure (some note))
          (Rule.noteBehind other found >>= fun note => Rule.skipSpacing >>= fun _ =>
            pure (some note)) :=
        .bind_right (.noteBehind agrees found) fun _ => .answer .skipSpacing _
      exact behind _ _ _ _ later read goesOn
    · cases read
      exact ⟨longer, rfl, before⟩
  · rw [atEnd] at read
    cases read
    exact absurd ahead goesOn

theorem Carries.route (docs : List Text) :
    more.Carries more.BehindLine (Rule.route source docs) (Rule.route other docs) := by
  rw [Rule.route_eq, Rule.route_eq]
  exact (CarriesInside.many (Rule.forward_routeNote? source) (Rule.shrinks_routeNote? source)
    (.routeNote? agrees)).bind (fun _ => .of_consumes (Rule.consumes_routeLine _ docs))
    ((Rule.forward_routeNote? source).many (Rule.shrinks_routeNote? source))
    fun _ => .routeLine _ docs

theorem CarriesInside.groupServer :
    more.CarriesInside (Rule.groupServer source) (Rule.groupServer other) := by
  refine .bind_right (.accepts rfl) fun found => ?_
  cases found with
  | false => exact (Carries.pure _).line.inside
  | true =>
    exact .bind_right (.of_mirrors (simulation agrees).propertyBlock) fun properties =>
      .answer .skipSpacing fun _ => some properties

theorem Carries.serviceGroup :
    more.Carries more.Before (Rule.serviceGroup source) (Rule.serviceGroup other) := by
  refine CarriesInside.bind (.groupServer agrees)
    (fun _ => .bind (.of_consumes (Rule.consumes_expect (by decide))))
    (Rule.forward_groupServer source) fun _ => .bind (.expect rfl) fun _ =>
      .bind .expectName fun name => .bind (.expect rfl) fun _ => .answer ?_ _
  rw [Rule.route?_eq, Rule.route?_eq]
  exact .many_untilClosed Rule.forward_docs (by decide) (Rule.consumes_route source) .docs
    (Carries.route agrees)

/-- Every declaration ends with its last token or with its line. -/
theorem Carries.declarationOf {docs : List Text} {kind : Kind} {declared : Rule Declaration}
    (found : Rule.declarationOf source docs kind = some declared) :
    ∃ longer, Rule.declarationOf other docs kind = some longer ∧
      more.Carries more.BehindLine declared longer := by
  unfold Rule.declarationOf at found
  split at found
  case h_1 =>
    cases found
    exact ⟨_, rfl, .answer .version _⟩
  case h_2 =>
    cases found
    exact ⟨_, rfl, .line (.answer (.of_mirrors (simulation agrees).info) _)⟩
  case h_3 =>
    cases found
    exact ⟨_, rfl, .answer .imports _⟩
  case h_4 =>
    cases found
    exact ⟨_, rfl, .answer (.typeDecls docs) _⟩
  case h_5 | h_6 =>
    cases found
    exact ⟨_, rfl, .line (.answer (.serviceGroup agrees) _)⟩
  case h_7 => exact nomatch found

/-- A declaration that is read from a text is read the same with more behind the text. -/
theorem declaration?_before {stream longer next : Stream} {declaration : Declaration}
    (before : more.Before stream longer)
    (read : Rule.declaration? source stream = .ok (some declaration) next) :
    ∃ longerNext, Rule.declaration? other longer = .ok (some declaration) longerNext ∧
      more.BehindLine next longerNext := by
  rw [Rule.declaration?_eq] at read ⊢
  obtain ⟨docs, middle, readDocs, readBelow⟩ := bind_eq_ok_iff.mp read
  unfold Rule.declarationBelow at readBelow
  split at readBelow
  · next declared found =>
    have ended := (Rule.forward_docs.length_le before.ended readDocs).2
    have consumes := Rule.consumes_declarationOf found
    have goesOn : middle.ahead ≠ [] := by
      intro atEnd
      exact (FailsAtEnd.of_consumes consumes).bind _ _ _ ended atEnd readBelow
    obtain ⟨longerMiddle, longerDocs, middleBefore⟩ :=
      CarriesInside.docs _ _ _ _ before readDocs goesOn
    obtain ⟨-, same, -⟩ := middleBefore.cases.resolve_right fun atEnd => goesOn atEnd.1
    obtain ⟨longerDeclared, longerFound, carries⟩ := Carries.declarationOf agrees found
    obtain ⟨longerNext, longerBelow, behind⟩ :=
      carries.answer some _ _ _ _ middleBefore readBelow
    refine ⟨longerNext, bind_eq_ok_iff.mpr ⟨docs, longerMiddle, longerDocs, ?_⟩, behind⟩
    unfold Rule.declarationBelow
    rw [same, longerFound]
    exact longerBelow
  · split at readBelow <;> exact nomatch readBelow

end Sources

end Extension

end ApiDescription
