import ApiDescription.Proofs.Grammar.Mirroring
import ApiDescription.Proofs.Token.Insertion

/-!
# Rules in front of an inserted comment

The tokens of a text with a comment inserted in front of a line feed are those of the text,
but for the comment itself and for the places of what follows it. A rule that has read the
text reads the edited text in parallel up to the comment. There it either passes the comment
together with the line feed or finds it where it insists on the line feed, which is its only
way to fail. `Follows` says where it fails and that everywhere else it answers the same.
-/

namespace ApiDescription

/-- What rules ask of a token: its kind, its value, and its line. -/
def Token.face (token : Token) : Kind × String × Nat :=
  (token.kind, token.value, token.start.line)

/-- A comment inserted in front of a line feed, and the tokens around it. Those below the line
feed are moved differently in the two texts, which rules cannot tell. -/
structure Insertion where
  feed : Token
  remark : Token
  feedBehind : Token
  /-- The tokens below the line feed, before they are moved. -/
  later : List Token
  finish : Token
  /-- What all tokens in front of the line feed have in common. -/
  Known : Token → Prop
  moved : Token → Token
  further : Token → Token
  isFeed : feed.kind = .newline
  isRemark : remark.kind = .comment
  isFeedBehind : feedBehind.kind = .newline
  remark_line : remark.start.line = feed.start.line
  face_further : ∀ token, (further token).face = (moved token).face
  ends : (moved finish).kind = .endOfText
  known_ne : ∀ token, Known token → token ≠ feed
  feed_notMem : feed ∉ later.map moved

/-- A stream in front of a token. -/
def InFrontOf (token : Token) (stream : Stream) : Prop := stream.ahead.head? = some token

/-- A rule succeeds, and something holds of its answer and of the stream behind it. -/
def Then {α : Type} (first : Rule α) (holds : α → Stream → Prop) (stream : Stream) : Prop :=
  ∃ value next, first stream = .ok value next ∧ holds value next

/-- Something holds in front of one of the rounds of a loop. -/
def InRounds {α : Type} (round : Rule (Option α)) (holds : Stream → Prop) (stream : Stream) :
    Prop :=
  ∃ items last, Rounds round stream items last ∧ holds last

section Paths

variable {α : Type} {stream next : Stream}

/-- What holds behind a rule that succeeds. -/
theorem then_iff {first : Rule α} {holds : α → Stream → Prop} {value : α}
    (read : first stream = .ok value next) : Then first holds stream ↔ holds value next := by
  constructor
  · rintro ⟨_, _, readAgain, held⟩
    rw [read] at readAgain
    cases readAgain
    exact held
  · exact fun held => ⟨value, next, read, held⟩

/-- The last round of a loop is the only one left. -/
theorem inRounds_of_none {round : Rule (Option α)} {holds : Stream → Prop}
    (read : round stream = .ok none next) : InRounds round holds stream ↔ holds stream := by
  constructor
  · rintro ⟨items, last, run, held⟩
    cases run with
    | none _ => exact held
    | more readItem _ =>
      rw [read] at readItem
      cases readItem
  · exact fun held => ⟨[], stream, .none stream, held⟩

/-- A round that reads an item, and the rounds behind it. -/
theorem inRounds_of_some {round : Rule (Option α)} {holds : Stream → Prop} {item : α}
    (read : round stream = .ok (some item) next) :
    InRounds round holds stream ↔ holds stream ∨ InRounds round holds next := by
  constructor
  · rintro ⟨items, last, run, held⟩
    cases run with
    | none _ => exact .inl held
    | more readItem later =>
      rw [read] at readItem
      cases readItem
      exact .inr ⟨_, last, later, held⟩
  · rintro (held | ⟨items, last, later, held⟩)
    · exact ⟨[], stream, .none stream, held⟩
    · exact ⟨item :: items, last, .more read later, held⟩

end Paths

namespace Insertion

variable (insertion : Insertion)

/-- The fault of a rule that insists on a line feed where the comment is. -/
def fault : SyntaxError :=
  .located (.expectedLineEnd insertion.remark) insertion.remark.start

/-- Properties have the same values in the text and in the edited text. -/
structure KeepsValues (source edited : List Char) : Prop where
  inFront : ∀ tokens : List Token, (∀ token ∈ tokens, insertion.Known token) →
    valueOfTokens edited tokens = valueOfTokens source tokens
  below : ∀ tokens : List Token, valueOfTokens edited (tokens.map insertion.further) =
    valueOfTokens source (tokens.map insertion.moved)

/-- Streams with the same tokens up to the line feed. -/
structure InFront (stream edited : Stream) (tokens : List Token) : Prop where
  ahead : stream.ahead = tokens ++ insertion.feed :: insertion.later.map insertion.moved
  editedAhead : edited.ahead = tokens ++ insertion.remark :: insertion.feedBehind ::
    insertion.later.map insertion.further
  known : ∀ token ∈ tokens, insertion.Known token
  noComment : ∀ token ∈ tokens.getLast?, token.kind ≠ .comment

/-- Streams with the same tokens below the line feed. -/
structure Below (stream edited : Stream) (tokens : List Token) : Prop where
  ahead : stream.ahead = tokens.map insertion.moved
  editedAhead : edited.ahead = tokens.map insertion.further
  isLater : tokens ⊆ insertion.later

/-- Streams at the same place of the two texts, which is not between the comment and its line
feed. -/
structure Related (stream edited : Stream) : Prop where
  finish : stream.finish = insertion.moved insertion.finish
  editedFinish : edited.finish = insertion.further insertion.finish
  chain : stream.ahead.IsChain Token.GoesOn
  place : (∃ tokens, insertion.InFront stream edited tokens) ∨
    ∃ tokens, insertion.Below stream edited tokens

variable {insertion} {stream edited : Stream}

theorem Related.ended (related : insertion.Related stream edited) : stream.Ended := by
  rw [Stream.Ended, related.finish]
  exact insertion.ends

theorem Related.editedEnded (related : insertion.Related stream edited) : edited.Ended := by
  rw [Stream.Ended, related.editedFinish]
  exact (congrArg Prod.fst (insertion.face_further _)).trans insertion.ends

theorem Related.bothEnded {stream edited : Stream} (related : insertion.Related stream edited) :
    stream.Ended ∧ edited.Ended :=
  ⟨related.ended, related.editedEnded⟩

/-- Moving on in both streams. -/
theorem Related.of_ahead (related : insertion.Related stream edited) (next left : Stream)
    (finish : next.finish = stream.finish) (editedFinish : left.finish = edited.finish)
    (suffix : next.ahead <:+ stream.ahead)
    (place : (∃ tokens, insertion.InFront next left tokens) ∨
      ∃ tokens, insertion.Below next left tokens) : insertion.Related next left where
  finish := finish.trans related.finish
  editedFinish := editedFinish.trans related.editedFinish
  chain := related.chain.suffix suffix
  place := place

/-- Further on in front of the line feed. -/
theorem InFront.of_suffix {tokens rest : List Token} {next left : Stream}
    (inFront : insertion.InFront stream edited tokens) (isSuffix : rest <:+ tokens)
    (ahead : next.ahead = rest ++ insertion.feed :: insertion.later.map insertion.moved)
    (editedAhead : left.ahead = rest ++ insertion.remark :: insertion.feedBehind ::
      insertion.later.map insertion.further) : insertion.InFront next left rest where
  ahead := ahead
  editedAhead := editedAhead
  known token isLeft := inFront.known token (isSuffix.subset isLeft)
  noComment last isLast := by
    apply inFront.noComment
    obtain ⟨before, rfl⟩ := isSuffix
    rw [List.getLast?_append, Option.mem_def.mp isLast]
    rfl

/-- In front of a token that is known the line feed is further on. -/
theorem InFront.not_inFrontOf_feed {token : Token} {tokens : List Token}
    (inFront : insertion.InFront stream edited (token :: tokens)) :
    ¬InFrontOf insertion.feed stream := by
  rw [InFrontOf, inFront.ahead]
  intro same
  exact insertion.known_ne token (inFront.known token List.mem_cons_self) (Option.some.inj same)

/-- Below the line feed there is no second one like it. -/
theorem Below.not_inFrontOf_feed {tokens : List Token}
    (below : insertion.Below stream edited tokens) : ¬InFrontOf insertion.feed stream := by
  rw [InFrontOf, below.ahead]
  cases tokens with
  | nil => simp
  | cons token tokens =>
    intro same
    apply insertion.feed_notMem
    rw [← Option.some.inj same]
    exact List.mem_map_of_mem (below.isLater List.mem_cons_self)

/-- Behind some of the tokens in front of the line feed. -/
theorem Related.skip_inFront {tokens : List Token} (related : insertion.Related stream edited)
    (inFront : insertion.InFront stream edited tokens) {count : Nat}
    (inside : count ≤ tokens.length) :
    insertion.Related (stream.skip count) (edited.skip count) := by
  refine related.of_ahead (stream.skip count) (edited.skip count) rfl rfl (List.drop_suffix _ _)
    (.inl ⟨tokens.drop count, inFront.of_suffix (List.drop_suffix _ _) ?_ ?_⟩)
  · exact (congrArg (List.drop count) inFront.ahead).trans (List.drop_append_of_le_length inside)
  · exact (congrArg (List.drop count) inFront.editedAhead).trans
      (List.drop_append_of_le_length inside)

/-- Behind some of the tokens below the line feed. -/
theorem Related.skip_below {tokens : List Token} (related : insertion.Related stream edited)
    (below : insertion.Below stream edited tokens) (count : Nat) :
    insertion.Related (stream.skip count) (edited.skip count) := by
  refine related.of_ahead (stream.skip count) (edited.skip count) rfl rfl (List.drop_suffix _ _)
    (.inr ⟨tokens.drop count, ?_, ?_, fun _ isLeft => below.isLater (List.mem_of_mem_drop isLeft)⟩)
  · exact (congrArg (List.drop count) below.ahead).trans List.map_drop.symm
  · exact (congrArg (List.drop count) below.editedAhead).trans List.map_drop.symm

/-- Behind its next token the bare text goes on, and the edited one at the place that goes with
it. -/
theorem Related.next (related : insertion.Related stream edited) {left : Stream} {token : Token}
    {rest : List Token} (ahead : stream.ahead = token :: rest)
    (editedFinish : left.finish = edited.finish)
    (place : (∃ tokens, insertion.InFront stream.next left tokens) ∨
      ∃ tokens, insertion.Below stream.next left tokens) : insertion.Related stream.next left := by
  refine related.of_ahead _ _ (Stream.finish_next _) editedFinish ?_ place
  rw [Stream.ahead_next ahead, ahead]
  exact List.suffix_cons _ _

/-- Two related streams are in front of the same token, and related behind it; or one is in front
of the line feed and the other in front of the comment, and they are related behind the line
feeds. -/
theorem Related.cases (related : insertion.Related stream edited) :
    (¬InFrontOf insertion.feed stream ∧ edited.current.face = stream.current.face ∧
        insertion.Related stream.next edited.next ∧
        (stream.current.kind = .comment → ¬InFrontOf insertion.feed stream.next)) ∨
      (InFrontOf insertion.feed stream ∧ stream.current = insertion.feed ∧
        edited.current = insertion.remark ∧ edited.next.current = insertion.feedBehind ∧
        insertion.Related stream.next edited.next.next) := by
  rcases related.place with ⟨_ | ⟨token, tokens⟩, inFront⟩ | ⟨_ | ⟨token, tokens⟩, below⟩
  · have ahead := inFront.ahead
    have editedAhead := inFront.editedAhead
    rw [List.nil_append] at ahead editedAhead
    have behindRemark := Stream.ahead_next editedAhead
    refine .inr ⟨by rw [InFrontOf, ahead]; rfl, Stream.current_of_cons ahead,
      Stream.current_of_cons editedAhead, Stream.current_of_cons behindRemark, ?_⟩
    exact related.next ahead (by simp) (.inr ⟨insertion.later, Stream.ahead_next ahead,
      Stream.ahead_next behindRemark, fun _ => id⟩)
  · have ahead := inFront.ahead
    have editedAhead := inFront.editedAhead
    rw [List.cons_append] at ahead editedAhead
    have nextInFront : insertion.InFront stream.next edited.next tokens :=
      inFront.of_suffix (List.suffix_cons _ _) (Stream.ahead_next ahead)
        (Stream.ahead_next editedAhead)
    refine .inl ⟨inFront.not_inFrontOf_feed, ?_,
      related.next ahead (by simp) (.inl ⟨tokens, nextInFront⟩), ?_⟩
    · rw [Stream.current_of_cons ahead, Stream.current_of_cons editedAhead]
    · intro isComment
      rw [Stream.current_of_cons ahead] at isComment
      cases tokens with
      | nil => exact absurd isComment (inFront.noComment token rfl)
      | cons => exact nextInFront.not_inFrontOf_feed
  · have ahead : stream.ahead = [] := below.ahead
    have editedAhead : edited.ahead = [] := below.editedAhead
    have next : stream.next = stream := by rw [Stream.next, ahead]
    have editedNext : edited.next = edited := by rw [Stream.next, editedAhead]
    refine .inl ⟨below.not_inFrontOf_feed, ?_, ?_, fun _ => next.symm ▸ below.not_inFrontOf_feed⟩
    · rw [Stream.current_of_nil ahead, Stream.current_of_nil editedAhead, related.finish,
        related.editedFinish, insertion.face_further]
    · rwa [next, editedNext]
  · have ahead := below.ahead
    have editedAhead := below.editedAhead
    rw [List.map_cons] at ahead editedAhead
    have nextBelow : insertion.Below stream.next edited.next tokens :=
      ⟨Stream.ahead_next ahead, Stream.ahead_next editedAhead,
        fun _ isLater => below.isLater (List.mem_cons_of_mem _ isLater)⟩
    refine .inl ⟨below.not_inFrontOf_feed, ?_,
      related.next ahead (by simp) (.inr ⟨tokens, nextBelow⟩),
      fun _ => nextBelow.not_inFrontOf_feed⟩
    rw [Stream.current_of_cons ahead, Stream.current_of_cons editedAhead, insertion.face_further]

/-- A question with one answer. -/
theorem question {value answer : Bool} (same : id answer = id value) :
    answer = true ↔ value = true := by
  rw [show answer = value from same]

/-- Tokens that look the same are of one kind. -/
theorem kind_of_face {first second : Token} (same : first.face = second.face) :
    first.kind = second.kind := congrArg Prod.fst same

/-- Tokens that look the same have the same text. -/
theorem text_of_face {first second : Token} (same : first.face = second.face) :
    first.text = second.text :=
  congrArg Text.ofString (congrArg (fun face : Kind × String × Nat => face.2.1) same)

/-- Related streams are in step: where one is in front of the line feed and the other in front of
the comment, no line goes on. -/
theorem inStep : InStep (fun token found => found.face = token.face) insertion.Related where
  kind := kind_of_face
  step related := by
    rcases related.cases with ⟨-, face, nextRelated, -⟩ | ⟨-, atFeed, atRemark, -⟩
    · exact .inl ⟨face, fun _ => nextRelated⟩
    · rw [atFeed, atRemark, insertion.isFeed, insertion.isRemark]
      exact .inr ⟨rfl, rfl, by decide⟩

variable (insertion) in
/-- What a rule reads from a text it reads from the edited text, as far as it can be seen in the
answer, unless the line feed is insisted on where the comment is. -/
def Follows {α β : Type} (view : α → β) (bare : Stream → Prop) (rule other : Rule α) : Prop :=
  ∀ stream edited value next, insertion.Related stream edited → rule stream = .ok value next →
    (bare stream ∧ ∃ left, other edited = .error insertion.fault left) ∨
      (¬bare stream ∧ ∃ answer left, other edited = .ok answer left ∧ view answer = view value ∧
        insertion.Related next left)

variable (insertion) in
/-- A rule that reads the edited text whenever it reads the text. -/
def Ignores {α β : Type} (view : α → β) (rule other : Rule α) : Prop :=
  insertion.Follows view (fun _ => False) rule other

variable {α β γ δ : Type} {view : α → γ} {seen : β → δ}

namespace Follows

/-- A condition on where a rule fails may be written differently. -/
theorem congr {bare bare' : Stream → Prop} {rule other : Rule α}
    (follows : insertion.Follows view bare rule other)
    (same : ∀ stream edited value next, insertion.Related stream edited →
      rule stream = .ok value next → (bare' stream ↔ bare stream)) :
    insertion.Follows view bare' rule other := by
  intro stream edited value next related read
  rw [same stream edited value next related read]
  exact follows stream edited value next related read

/-- Rules in turn, the first of which never fails. -/
theorem bind {bare : α → Stream → Prop} {first first' : Rule α} {second second' : α → Rule β}
    (earlier : insertion.Ignores view first first')
    (later : ∀ value answer, view answer = view value →
      insertion.Follows seen (bare value) (second value) (second' answer)) :
    insertion.Follows seen (Then first bare) (first >>= second) (first' >>= second') := by
  intro stream edited value next related read
  obtain ⟨found, middle, readFirst, readSecond⟩ := bind_eq_ok_iff.mp read
  rw [then_iff readFirst]
  rcases earlier _ _ _ _ related readFirst with
    ⟨never, -⟩ | ⟨-, answer, left, editedFirst, same, middleRelated⟩
  · exact never.elim
  · rw [bind_apply, editedFirst]
    exact later found answer same _ _ _ _ middleRelated readSecond

/-- Rules in turn, the second of which never fails. -/
theorem bind_ignores {bare : Stream → Prop} {first first' : Rule α} {second second' : α → Rule β}
    (earlier : insertion.Follows view bare first first')
    (later : ∀ value answer, view answer = view value →
      insertion.Ignores seen (second value) (second' answer)) :
    insertion.Follows seen bare (first >>= second) (first' >>= second') := by
  intro stream edited value next related read
  obtain ⟨found, middle, readFirst, readSecond⟩ := bind_eq_ok_iff.mp read
  rw [bind_apply]
  rcases earlier _ _ _ _ related readFirst with
    ⟨held, left, failed⟩ | ⟨passes, answer, left, editedFirst, same, middleRelated⟩
  · exact .inl ⟨held, left, by rw [failed]⟩
  · rw [editedFirst]
    rcases later found answer same _ _ _ _ middleRelated readSecond with ⟨never, -⟩ | ⟨-, whole⟩
    · exact never.elim
    · exact .inr ⟨passes, whole⟩

/-- A choice on the same question. -/
theorem ite {yes no : Stream → Prop} {condition other : Prop} [Decidable condition]
    [Decidable other] {first second first' second' : Rule α} (same : other ↔ condition)
    (holds : insertion.Follows view yes first first')
    (fails : insertion.Follows view no second second') :
    insertion.Follows view (if condition then yes else no)
      (if condition then first else second) (if other then first' else second') := by
  by_cases question : condition
  · rw [if_pos question, if_pos question, if_pos (same.mpr question)]
    exact holds
  · rw [if_neg question, if_neg question, if_neg (mt same.mp question)]
    exact fails

/-- An answer made of the answer of a rule. -/
theorem answer {bare : Stream → Prop} {rule other : Rule α} {f f' : α → β}
    (follows : insertion.Follows view bare rule other)
    (natural : ∀ value answer, view answer = view value → seen (f' answer) = seen (f value)) :
    insertion.Follows seen bare (rule >>= fun value => Pure.pure (f value))
      (other >>= fun value => Pure.pure (f' value)) := by
  apply follows.bind_ignores
  intro value answer same stream edited found next related read
  cases read
  exact .inr ⟨not_false, _, edited, rfl, natural value answer same, related⟩

/-- Where the rounds of a loop fail, the loop fails. -/
theorem many {bare : Stream → Prop} {round other : Rule (Option α)}
    (shrinks : ShrinksWithin Stream.Ended round) (otherShrinks : ShrinksWithin Stream.Ended other)
    (follows : insertion.Follows (Option.map view) bare round other) :
    insertion.Follows (List.map view) (InRounds round bare) (many round) (many other) := by
  intro stream edited values next related read
  obtain ⟨last, run, ended⟩ := (many_eq_ok_iff shrinks related.ended).mp read
  have parallel : (InRounds round bare stream ∧ ∃ items last left,
        Rounds other edited items last ∧ other last = .error insertion.fault left) ∨
      (¬InRounds round bare stream ∧ ∃ answers last left, Rounds other edited answers last ∧
        other last = .ok none left ∧ answers.map view = values.map view ∧
        insertion.Related next left) := by
    clear read
    induction run generalizing edited with
    | none stream =>
      rw [inRounds_of_none ended]
      rcases follows _ _ _ _ related ended with
        ⟨held, left, failed⟩ | ⟨passes, answer, left, editedEnd, same, nextRelated⟩
      · exact .inl ⟨held, [], edited, left, .none edited, failed⟩
      · obtain rfl := Option.map_eq_none_iff.mp same
        exact .inr ⟨passes, [], edited, left, .none edited, editedEnd, rfl, nextRelated⟩
    | @more stream middle last item items readItem _ inductionHypothesis =>
      rw [inRounds_of_some readItem]
      rcases follows _ _ _ _ related readItem with
        ⟨held, left, failed⟩ | ⟨passes, answer, left, editedItem, same, middleRelated⟩
      · exact .inl ⟨.inl held, [], edited, left, .none edited, failed⟩
      · obtain ⟨answer, rfl, sameItem⟩ := Option.map_eq_some_iff.mp same
        rcases inductionHypothesis _ middleRelated ended with
          ⟨held, others, last, left, laterRun, failed⟩ |
          ⟨laterPasses, others, last, left, laterRun, editedEnd, sameItems, nextRelated⟩
        · exact .inl ⟨.inr held, _, last, left, .more editedItem laterRun, failed⟩
        · refine .inr ⟨not_or.mpr ⟨passes, laterPasses⟩, _, last, left,
            .more editedItem laterRun, editedEnd, ?_, nextRelated⟩
          rw [List.map_cons, List.map_cons, sameItem, sameItems]
  rcases parallel with ⟨held, items, last, left, editedRun, failed⟩ |
    ⟨passes, answers, last, left, editedRun, editedEnd, same, nextRelated⟩
  · exact .inl ⟨held, left,
      (many_eq_error_iff otherShrinks related.editedEnded).mpr ⟨items, last, editedRun, failed⟩⟩
  · exact .inr ⟨passes, answers, left,
      (many_eq_ok_iff otherShrinks related.editedEnded).mpr ⟨last, editedRun, editedEnd⟩,
      same, nextRelated⟩

end Follows

namespace Ignores

/-- A rule that mirrors another one ignores what cannot be seen in its answer. -/
theorem of_mirrors {same : α → α → Prop} {rule other : Rule α}
    (mirrors : Mirrors insertion.Related insertion.Related same rule other)
    (looks : ∀ value answer, same value answer → view answer = view value) :
    insertion.Ignores view rule other := by
  intro stream edited value next related read
  obtain ⟨answer, left, editedRead, holds, nextRelated⟩ := mirrors _ _ _ _ related read
  exact .inr ⟨not_false, answer, left, editedRead, looks _ _ holds, nextRelated⟩

theorem of_eq {rule other : Rule α}
    (mirrors : Mirrors insertion.Related insertion.Related Eq rule other) :
    insertion.Ignores id rule other :=
  of_mirrors mirrors fun _ _ same => same.symm

theorem mirrors {rule other : Rule α} (ignores : insertion.Ignores view rule other) :
    Mirrors insertion.Related insertion.Related (Seen view) rule other := by
  intro stream edited value next related read
  rcases ignores _ _ _ _ related read with ⟨never, -⟩ | ⟨-, found⟩
  · exact never.elim
  · exact found

theorem pure {value answer : α} (same : view answer = view value) :
    insertion.Ignores view (pure value) (pure answer) := by
  intro stream edited found next related read
  cases read
  exact .inr ⟨not_false, answer, edited, rfl, same, related⟩

theorem bind {first first' : Rule α} {second second' : α → Rule β}
    (earlier : insertion.Ignores view first first')
    (later : ∀ value answer, view answer = view value →
      insertion.Ignores seen (second value) (second' answer)) :
    insertion.Ignores seen (first >>= second) (first' >>= second') :=
  earlier.bind_ignores later

theorem ite {condition other : Prop} [Decidable condition] [Decidable other]
    {first second first' second' : Rule α} (same : other ↔ condition)
    (holds : insertion.Ignores view first first') (fails : insertion.Ignores view second second') :
    insertion.Ignores view (if condition then first else second)
      (if other then first' else second') :=
  (Follows.ite same holds fails).congr fun _ _ _ _ _ _ => by split <;> rfl

/-- The line feed and the comment stand on one line. -/
theorem current : insertion.Ignores (·.start.line) Rule.current Rule.current := by
  intro stream edited value next related read
  cases read
  refine .inr ⟨not_false, _, edited, rfl, ?_, related⟩
  rcases related.cases with ⟨-, same, -⟩ | ⟨-, atFeed, atRemark, -⟩
  · exact congrArg (fun face : Kind × String × Nat => face.2.2) same
  · rw [atFeed, atRemark]
    exact insertion.remark_line

/-- The run of spacing in front of the comment goes on behind it. -/
theorem spacing : insertion.Ignores (fun _ => ()) Rule.spacing Rule.spacing := by
  intro stream edited value next related read
  cases read
  refine .inr ⟨not_false, _, _, rfl, rfl, ?_⟩
  refine related.of_ahead (stream.skip _) (edited.skip _) rfl rfl
    (by rw [Stream.ahead_skip_takeWhile]; exact List.dropWhile_suffix _) ?_
  have feedSpaces : insertion.feed.isSpacing = true := by
    simp [Token.isSpacing, insertion.isFeed]
  have remarkSpaces : insertion.remark.isSpacing = true := by
    simp [Token.isSpacing, insertion.isRemark]
  have behindSpaces : insertion.feedBehind.isSpacing = true := by
    simp [Token.isSpacing, insertion.isFeedBehind]
  have below (tokens : List Token) :
      (tokens.map insertion.further).dropWhile Token.isSpacing =
        (tokens.dropWhile (Token.isSpacing ∘ insertion.moved)).map insertion.further := by
    have same : Token.isSpacing ∘ insertion.further = Token.isSpacing ∘ insertion.moved := by
      funext token
      simp only [Function.comp, Token.isSpacing, kind_of_face (insertion.face_further token)]
    rw [List.dropWhile_map, same]
  rcases related.place with ⟨tokens, inFront⟩ | ⟨tokens, isBelow⟩
  · cases left : tokens.dropWhile Token.isSpacing with
    | nil =>
      refine .inr ⟨insertion.later.dropWhile (Token.isSpacing ∘ insertion.moved), ?_, ?_, ?_⟩
      · rw [Stream.ahead_skip_takeWhile, inFront.ahead, List.dropWhile_append, left]
        simp [feedSpaces, List.dropWhile_map]
      · rw [Stream.ahead_skip_takeWhile, inFront.editedAhead, List.dropWhile_append, left]
        simp [remarkSpaces, behindSpaces, below]
      · exact (List.dropWhile_suffix _).subset
    | cons token rest =>
      have isSuffix : token :: rest <:+ tokens := left ▸ List.dropWhile_suffix _
      refine .inl ⟨token :: rest, inFront.of_suffix isSuffix ?_ ?_⟩
      · rw [Stream.ahead_skip_takeWhile, inFront.ahead, List.dropWhile_append, left]
        rfl
      · rw [Stream.ahead_skip_takeWhile, inFront.editedAhead, List.dropWhile_append, left]
        rfl
  · refine .inr ⟨tokens.dropWhile (Token.isSpacing ∘ insertion.moved), ?_, ?_, ?_⟩
    · rw [Stream.ahead_skip_takeWhile, isBelow.ahead, List.dropWhile_map]
    · rw [Stream.ahead_skip_takeWhile, isBelow.editedAhead, below]
    · exact fun _ isLeft => isBelow.isLater ((List.dropWhile_suffix _).subset isLeft)

theorem skipSpacing : insertion.Ignores id Rule.skipSpacing Rule.skipSpacing := by
  rw [Rule.skipSpacing_eq]
  exact .bind .spacing fun _ _ _ => .pure rfl

theorem spaces : Mirrors insertion.Related insertion.Related Eq Rule.skipSpacing Rule.skipSpacing :=
  skipSpacing.mirrors.coarsen fun _ _ _ => rfl

/-- Docs are looked for in the same place; the comment may be one of them. -/
theorem docs : insertion.Ignores (fun _ => ()) Rule.docs Rule.docs :=
  .bind .spacing fun _ _ _ => .pure rfl

/-- A value ends in front of the comment as it ends in front of the line feed. -/
theorem propertyValue {source other : List Char} (values : insertion.KeepsValues source other) :
    insertion.Ignores id (Rule.propertyValue source) (Rule.propertyValue other) := by
  intro stream edited value next related read
  cases read
  refine .inr ⟨not_false, _, _, rfl, ?_⟩
  have feedEnds : insertion.feed.endsValue = true := by
    simp [Token.endsValue, insertion.isFeed]
  have remarkEnds : insertion.remark.endsValue = true := by
    simp [Token.endsValue, insertion.isRemark]
  rcases related.place with ⟨tokens, isInFront⟩ | ⟨tokens, isBelow⟩
  · have run (rest : List Token) {stop : Token} (ends : stop.endsValue = true) :
        (tokens ++ stop :: rest).takeWhile (fun token => !token.endsValue) =
          tokens.takeWhile fun token => !token.endsValue := by
      rw [List.takeWhile_append]
      split
      · next whole =>
        rw [(List.takeWhile_prefix _).eq_of_length whole]
        simp [ends]
      · rfl
    have isPrefix := List.takeWhile_prefix (l := tokens) fun token => !token.endsValue
    rw [isInFront.ahead, isInFront.editedAhead, run _ feedEnds, run _ remarkEnds]
    refine ⟨values.inFront _ fun token isValue => isInFront.known token (isPrefix.subset isValue),
      related.skip_inFront isInFront isPrefix.length_le⟩
  · have same : (fun token : Token => !token.endsValue) ∘ insertion.further =
        (fun token : Token => !token.endsValue) ∘ insertion.moved := by
      funext token
      simp only [Function.comp, Token.endsValue, kind_of_face (insertion.face_further token)]
    rw [isBelow.ahead, isBelow.editedAhead, List.takeWhile_map, List.takeWhile_map, same,
      List.length_map, List.length_map]
    exact ⟨values.below _, related.skip_below isBelow _⟩

/-- A loop between brackets whose items ignore the comment. -/
theorem many_untilClosed {lead : Rule β} {closing : Kind} {fault fault' : SyntaxError.Cause}
    {item item' : β → Rule α} (inLine : closing.isBreak = false) (forward : Rule.Forward lead)
    (consumes : ∀ led, Rule.Consumes (item led)) (consumes' : ∀ led, Rule.Consumes (item' led))
    (leads : insertion.Ignores (fun _ => ()) lead lead)
    (same : ∀ led led', insertion.Ignores view (item led) (item' led')) :
    insertion.Ignores (List.map view)
      (ApiDescription.many (Rule.untilClosed lead closing fault item))
      (ApiDescription.many (Rule.untilClosed lead closing fault' item')) :=
  of_mirrors (.many_untilClosed inStep Related.bothEnded (fun _ _ => id) inLine forward forward
    consumes
    consumes' leads.mirrors fun _ _ _ => (same _ _).mirrors) fun _ _ => Seen.of_forall₂

end Ignores

/-- Without a source a value is made of what its tokens say. -/
theorem keepsValues_nil : insertion.KeepsValues [] [] where
  inFront _ _ := rfl
  below tokens := by
    have texts : Token.text ∘ insertion.further = Token.text ∘ insertion.moved :=
      funext fun token => text_of_face (insertion.face_further token)
    cases tokens with
    | nil => rfl
    | cons first rest =>
      simp [valueOfTokens, kind_of_face (insertion.face_further first),
        text_of_face (insertion.face_further first), texts]

/-- Readings of the text and of the edited text, inside lines. -/
def simulation {source other : List Char} (values : insertion.KeepsValues source other) :
    Simulation where
  source := source
  other := other
  Alike token found := found.face = token.face
  Relates _ _ same rule rule' := Mirrors insertion.Related insertion.Related same rule rule'
  kind := kind_of_face
  value := congrArg fun face : Kind × String × Nat => face.2.1
  counterpart token := ⟨token, rfl⟩
  pure := .pure
  bind := .bind
  fail _ := .fail _ _
  failAt _ _ := fun _ _ _ _ _ read => nomatch read
  seesAny := .seesAny inStep
  branch := .branch inStep
  typeExpr := .typeExpr Related.bothEnded
  propertyValue := (Ignores.propertyValue values).mirrors.coarsen fun _ _ same => same.symm
  items _ consumes consumes' related :=
    .many_untilClosed inStep Related.bothEnded (fun _ _ => id) rfl Rule.forward_skipSpacing
      Rule.forward_skipSpacing (fun _ => consumes) (fun _ => consumes')
      Ignores.spaces fun _ _ _ => related

variable (insertion) in
/-- Readings of what does not depend on the source. -/
def reading : Simulation := @simulation insertion [] [] keepsValues_nil

namespace Ignores

theorem accepts {kind : Kind} (inLine : kind.isBreak = false) :
    insertion.Ignores id (Rule.accepts kind) (Rule.accepts kind) :=
  of_eq (insertion.reading.accepts inLine)

theorem textIf {kind : Kind} (inLine : kind.isBreak = false) :
    insertion.Ignores id (Rule.textIf kind) (Rule.textIf kind) :=
  of_eq (insertion.reading.textIf inLine)

theorem expect {kind : Kind} (inLine : kind.isBreak = false) :
    insertion.Ignores Token.face (Rule.expect kind) (Rule.expect kind) :=
  of_mirrors (insertion.reading.expect inLine) fun _ _ => id

theorem expectName : insertion.Ignores Token.face Rule.expectName Rule.expectName :=
  of_mirrors insertion.reading.expectName fun _ _ => id

end Ignores

/-- A line that takes no comment ends with the line feed unless the comment is in front of it. -/
theorem Follows.lineEnd :
    insertion.Follows id (InFrontOf insertion.feed) Rule.lineEnd Rule.lineEnd := by
  intro stream edited value next related read
  rw [Rule.lineEnd_apply] at read
  rw [Rule.lineEnd_apply]
  rcases related.cases with ⟨passes, same, nextRelated, -⟩ | ⟨held, atFeed, atRemark, -⟩
  · refine .inr ⟨passes, ?_⟩
    rw [kind_of_face same]
    split at read
    · next isFeed =>
      cases read
      rw [if_pos isFeed]
      exact ⟨_, _, rfl, rfl, nextRelated⟩
    split at read
    · next noFeed isEnd =>
      cases read
      rw [if_neg noFeed, if_pos isEnd]
      exact ⟨_, _, rfl, rfl, related⟩
    · cases read
  · refine .inl ⟨held, edited, ?_⟩
    rw [atRemark, insertion.isRemark, if_neg (by decide), if_neg (by decide), Rule.fail_apply,
      atRemark]
    rfl

/-- A line that takes a comment of its own ends behind it, unless the comment stands on another
line than the one it began on. -/
theorem Follows.lineClose {line : Nat} {behind behind' : Text → Rule α}
    (later : ∀ comment other, insertion.Ignores view (behind comment) (behind' other)) :
    insertion.Follows view
      (fun stream => InFrontOf insertion.feed stream ∧ line ≠ insertion.feed.start.line)
      (Rule.trailingComment line >>= fun comment => Rule.lineEnd >>= fun _ => behind comment)
      (Rule.trailingComment line >>= fun comment => Rule.lineEnd >>= fun _ => behind' comment) := by
  intro stream edited value next related read
  obtain ⟨comment, middle, readComment, readEnd⟩ := bind_eq_ok_iff.mp read
  obtain ⟨_, ended, readLine, readBehind⟩ := bind_eq_ok_iff.mp readEnd
  rw [Rule.trailingComment_apply] at readComment
  rw [bind_apply, Rule.trailingComment_apply]
  rcases related.cases with ⟨passes, same, nextRelated, noFeed⟩ |
    ⟨held, atFeed, atRemark, atBehind, nextRelated⟩
  · -- In front of another token both texts go on alike, and not up to the comment.
    have sameLine : edited.current.start.line = stream.current.start.line :=
      congrArg (fun face : Kind × String × Nat => face.2.2) same
    have ends {stream edited : Stream} (related : insertion.Related stream edited)
        (passes : ¬InFrontOf insertion.feed stream) (comment other : Text)
        (read : (Rule.lineEnd >>= fun _ => behind comment) stream = .ok value next) :
        ∃ answer left, (Rule.lineEnd >>= fun _ => behind' other) edited = .ok answer left ∧
          view answer = view value ∧ insertion.Related next left := by
      rcases Follows.lineEnd.bind_ignores (fun _ _ _ => later comment other) _ _ _ _ related read
        with ⟨held, -⟩ | ⟨-, found⟩
      · exact absurd held passes
      · exact found
    refine .inr ⟨fun held => passes held.1, ?_⟩
    rw [kind_of_face same, sameLine]
    split at readComment
    · next isComment =>
      cases readComment
      rw [if_pos isComment]
      exact ends nextRelated (noFeed isComment.1) _ _ readEnd
    · next noComment =>
      cases readComment
      rw [if_neg noComment]
      exact ends related passes _ _ readEnd
  · have noComment : stream.current.kind ≠ .comment := by simp [atFeed, insertion.isFeed]
    rw [if_neg fun isComment => noComment isComment.1] at readComment
    cases readComment
    rw [Rule.lineEnd_apply, if_pos (by rw [atFeed, insertion.isFeed])] at readLine
    cases readLine
    by_cases onLine : line = insertion.feed.start.line
    · -- The comment is taken, and behind it the line feed.
      refine .inr ⟨fun held => held.2 onLine, ?_⟩
      rw [atRemark, if_pos ⟨insertion.isRemark, insertion.remark_line.trans onLine.symm⟩]
      dsimp only
      rw [bind_apply, Rule.lineEnd_apply, if_pos (by rw [atBehind, insertion.isFeedBehind])]
      rcases later _ _ _ _ _ _ nextRelated readBehind with ⟨never, -⟩ | ⟨-, found⟩
      · exact never.elim
      · exact found
    · refine .inl ⟨⟨held, onLine⟩, edited, ?_⟩
      rw [atRemark, if_neg fun isComment => onLine (isComment.2.symm.trans insertion.remark_line)]
      dsimp only
      rw [bind_apply, Rule.lineEnd_apply, atRemark, insertion.isRemark, if_neg (by decide),
        if_neg (by decide), Rule.fail_apply, atRemark]
      rfl

/-- An item of a loop between brackets fails where its rule does, which is not in front of the
bracket. -/
theorem Follows.untilClosed {bare : Stream → Prop} {lead lead' : Rule β} {closing : Kind}
    {fault fault' : SyntaxError.Cause} {item item' : β → Rule α} (inLine : closing.isBreak = false)
    (passes : ∀ stream, stream.current.kind = closing → ¬bare stream)
    (leads : insertion.Ignores (fun _ => ()) lead lead')
    (same : ∀ led led', insertion.Follows view bare (item led) (item' led')) :
    insertion.Follows (Option.map view) (Then lead fun _ => bare)
      (Rule.untilClosed lead closing fault item) (Rule.untilClosed lead' closing fault' item') := by
  intro stream edited value next related read
  cases readLead : lead stream with
  | error failure middle =>
    rw [Rule.untilClosed_error readLead] at read
    cases read
  | ok led middle =>
    obtain ⟨led', left, editedLead, -, stand⟩ := leads.mirrors _ _ _ _ related readLead
    have closes_iff := inStep.kind_iff stand inLine
    rw [then_iff readLead]
    rw [Rule.untilClosed_apply readLead] at read
    rw [Rule.untilClosed_apply editedLead]
    split at read
    · next closed =>
      cases read
      rw [if_pos (closes_iff.mpr closed)]
      rcases inStep.step stand with ⟨-, goesOn⟩ | ⟨isBreak, -⟩
      · exact .inr ⟨passes _ closed, none, _, rfl, rfl, goesOn (closed ▸ inLine)⟩
      · simp [closed, inLine] at isBreak
    next opened =>
    split at read
    · cases read
    next goesOn =>
    rw [if_neg (mt closes_iff.mp opened), if_neg (mt (inStep.atEnd stand) goesOn)]
    have answered : insertion.Follows (Option.map view) bare
        (item led >>= fun value => pure (some value))
        (item' led' >>= fun value => pure (some value)) :=
      (same led led').answer fun _ _ sameItem => congrArg some sameItem
    exact answered _ _ _ _ stand read

end Insertion

end ApiDescription
