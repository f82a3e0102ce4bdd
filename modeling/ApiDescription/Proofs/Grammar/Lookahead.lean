import ApiDescription.Proofs.Grammar.LineSimulation
import ApiDescription.Proofs.Grammar.TypeTokens

/-!
# Rules see one token ahead

A rule looks at no token behind the one it stops in front of, and cuts nothing out of the source
behind the tokens it has taken. Where a text is changed from some token on, a rule that stops in
front of that token does what it did before the change, whether it succeeds or fails there. The
loops ask in every round, and types at every level, for no more than the next token; the bounds
that make them total depend on all tokens that are left, but they are never met.
-/

namespace ApiDescription

/-- A stream behind the leading tokens of a class has moved over all of them. -/
theorem Stream.position_skip_takeWhile (stream : Stream) (p : Token → Bool) :
    (stream.skip (stream.ahead.takeWhile p).length).position =
      stream.position + (stream.ahead.takeWhile p).length := by
  have bounded := (List.takeWhile_prefix p (l := stream.ahead)).length_le
  rw [skip, List.length_take, Nat.min_eq_left bounded]

/-- A change of a text: what was written, what is written now, and the position of the last token
that both have in common. -/
structure Revision where
  source : List Char
  other : List Char
  last : Nat
  sameEmpty : other.isEmpty = source.isEmpty

namespace Revision

variable (revision : Revision) {α β γ δ : Type}

/-- Both texts are the same up to the end of a token. -/
def Keeps (token : Token) : Prop :=
  revision.other.take token.stop = revision.source.take token.stop

/-- Streams over both texts at the same position, with the same tokens up to the last one that the
texts have in common. -/
structure Shares (stream other : Stream) : Prop where
  ended : stream.Ended
  otherEnded : other.Ended
  goesOn : ∀ token ∈ stream.ahead, token.kind ≠ .endOfText
  otherGoesOn : ∀ token ∈ other.ahead, token.kind ≠ .endOfText
  position : other.position = stream.position
  token : ∀ count, stream.position + count ≤ revision.last →
    (other.skip count).current = (stream.skip count).current
  text : ∀ count, stream.position + count ≤ revision.last →
    revision.Keeps (stream.skip count).current

/-- The same answer or the same fault, in front of the same token. -/
inductive Repeats : EStateM.Result SyntaxError Stream α → EStateM.Result SyntaxError Stream α → Prop
  | ok {value : α} {next left : Stream} (shares : revision.Shares next left) :
      Repeats (.ok value next) (.ok value left)
  | error {fault : SyntaxError} {next left : Stream} (shares : revision.Shares next left) :
      Repeats (.error fault next) (.error fault left)

/-- What a rule does is settled if it stops in front of a token that the texts have in common:
another rule does the same on the other text. -/
structure Settles (rule other : Rule α) : Prop where
  forward : Rule.Forward rule
  reads : ∀ stream left, revision.Shares stream left →
    (Rule.streamBehind (rule stream)).position ≤ revision.last →
      revision.Repeats (rule stream) (other left)

variable {revision}

/-- Values that are cut out of both texts in front of the change are the same. -/
theorem valueOfTokens_eq {tokens : List Token} (kept : ∀ token ∈ tokens, revision.Keeps token) :
    valueOfTokens revision.other tokens = valueOfTokens revision.source tokens := by
  cases tokens with
  | nil => rfl
  | cons first rest =>
    have lastKept : revision.Keeps (rest.getLastD first) := kept _ List.getLastD_mem_cons
    have cut : sliceOf revision.other first.start.offset (rest.getLastD first).stop =
        sliceOf revision.source first.start.offset (rest.getLastD first).stop := by
      rw [sliceOf, sliceOf, ← List.drop_take, ← List.drop_take, lastKept]
    simp only [valueOfTokens, cut, revision.sameEmpty]

namespace Shares

variable {stream other : Stream}

/-- The next token is the same if the texts have it in common. -/
theorem current (shares : revision.Shares stream other) (inside : stream.position ≤ revision.last) :
    other.current = stream.current := by
  simpa only [Stream.skip_zero] using shares.token 0 inside

/-- Up to the last common token, either both streams are at their ends or neither is. -/
theorem atEnd_iff (shares : revision.Shares stream other)
    (inside : stream.position ≤ revision.last) : other.ahead = [] ↔ stream.ahead = [] := by
  have same := shares.current inside
  cases ahead : stream.ahead with
  | nil =>
    refine iff_of_true ?_ rfl
    cases otherAhead : other.ahead with
    | nil => rfl
    | cons token rest =>
      rw [Stream.current_of_nil ahead, Stream.current_of_cons otherAhead] at same
      have goesOn := shares.otherGoesOn token (by rw [otherAhead]; exact List.mem_cons_self)
      exact absurd (same ▸ shares.ended) goesOn
  | cons token rest =>
    refine iff_of_false ?_ (by simp)
    intro otherEnd
    rw [Stream.current_of_cons ahead, Stream.current_of_nil otherEnd] at same
    have goesOn := shares.goesOn token (by rw [ahead]; exact List.mem_cons_self)
    exact goesOn (same ▸ shares.otherEnded)

/-- Behind the next token the streams still share what they shared. -/
theorem next (shares : revision.Shares stream other) (inside : stream.position ≤ revision.last) :
    revision.Shares stream.next other.next := by
  cases ahead : stream.ahead with
  | nil =>
    have stays : stream.next = stream := by simp only [Stream.next, ahead]
    have otherStays : other.next = other := by
      simp only [Stream.next, (shares.atEnd_iff inside).mpr ahead]
    rw [stays, otherStays]
    exact shares
  | cons token rest =>
    obtain ⟨otherToken, otherRest, otherAhead⟩ := List.exists_cons_of_ne_nil
      (mt (shares.atEnd_iff inside).mp (by simp [ahead]))
    have moved : stream.next.position = stream.position + 1 := by simp only [Stream.next, ahead]
    have otherMoved : other.next.position = other.position + 1 := by
      simp only [Stream.next, otherAhead]
    constructor
    case ended => exact (congrArg Token.kind stream.finish_next).trans shares.ended
    case otherEnded => exact (congrArg Token.kind other.finish_next).trans shares.otherEnded
    case goesOn =>
      rw [Stream.ahead_next ahead]
      exact fun found member => shares.goesOn found (by simp [ahead, member])
    case otherGoesOn =>
      rw [Stream.ahead_next otherAhead]
      exact fun found member => shares.otherGoesOn found (by simp [otherAhead, member])
    case position => rw [moved, otherMoved, shares.position]
    case token =>
      intro count bounded
      rw [← Stream.skip_one, ← Stream.skip_one, Stream.skip_skip, Stream.skip_skip]
      exact shares.token (1 + count) (by omega)
    case text =>
      intro count bounded
      rw [← Stream.skip_one, Stream.skip_skip]
      exact shares.text (1 + count) (by omega)

/-- The leading tokens of a class are the same if the texts have the token behind them in common. -/
theorem takeWhile (shares : revision.Shares stream other) (p : Token → Bool)
    (inside : stream.position + (stream.ahead.takeWhile p).length ≤ revision.last) :
    let run := stream.ahead.takeWhile p
    other.ahead.takeWhile p = run ∧ (∀ token ∈ run, revision.Keeps token) ∧
      revision.Shares (stream.skip run.length) (other.skip run.length) := by
  induction ahead : stream.ahead generalizing stream other with
  | nil =>
    have otherEnd := (shares.atEnd_iff (by omega)).mpr ahead
    refine ⟨by rw [otherEnd], List.forall_mem_nil _, ?_⟩
    simpa only [List.takeWhile_nil, List.length_nil, Stream.skip_zero] using shares
  | cons token rest inductionHypothesis =>
    have here : stream.position ≤ revision.last := by omega
    obtain ⟨otherToken, otherRest, otherAhead⟩ := List.exists_cons_of_ne_nil
      (mt (shares.atEnd_iff here).mp (by simp [ahead]))
    obtain rfl : otherToken = token := by
      have same := shares.current here
      rwa [Stream.current_of_cons otherAhead, Stream.current_of_cons ahead] at same
    rw [otherAhead]
    by_cases belongs : p otherToken = true
    · rw [ahead, List.takeWhile_cons_of_pos belongs, List.length_cons] at inside
      have moved : stream.next.position = stream.position + 1 := by simp only [Stream.next, ahead]
      obtain ⟨same, kept, behind⟩ := inductionHypothesis (shares.next here)
        (by rw [Stream.ahead_next ahead]; omega) (Stream.ahead_next ahead)
      rw [Stream.ahead_next otherAhead] at same
      have first : revision.Keeps otherToken := by
        have kept := shares.text 0 here
        rwa [Stream.skip_zero, Stream.current_of_cons ahead] at kept
      simp only [List.takeWhile_cons_of_pos belongs, List.length_cons, same, List.forall_mem_cons]
      refine ⟨trivial, ⟨first, kept⟩, ?_⟩
      rw [← Stream.skip_one, ← Stream.skip_one, Stream.skip_skip, Stream.skip_skip] at behind
      rwa [Nat.add_comm _ 1]
    · simp only [List.takeWhile_cons_of_neg belongs, List.length_nil, Stream.skip_zero]
      exact ⟨trivial, List.forall_mem_nil _, shares⟩

end Shares

/-- A rule leaves a stream no further back. -/
theorem position_le_of_forward {rule : Rule α} (forward : Rule.Forward rule) {stream : Stream}
    (ended : stream.Ended) : stream.position ≤ (Rule.streamBehind (rule stream)).position := by
  obtain ⟨count, behind⟩ := forward stream ended
  rw [behind]
  exact Nat.le_add_right _ _

/-- A rule that stops in front of a token that the texts have in common ends as another one does on
the other text, with an answer that is the same in some sense. -/
structure Tracks (same : α → β → Prop) (rule : Rule α) (other : Rule β) : Prop where
  forward : Rule.Forward rule
  reads : ∀ stream left, revision.Shares stream left →
    (Rule.streamBehind (rule stream)).position ≤ revision.last →
      Rule.Agree same Eq revision.Shares (rule stream) (other left)

namespace Tracks

variable {same : α → β → Prop} {seen : γ → δ → Prop}

theorem pure {value : α} {answer : β} (holds : same value answer) :
    revision.Tracks same (pure value) (pure answer) :=
  ⟨.pure value, fun _ _ shares _ => .ok holds shares⟩

theorem current : revision.Tracks Eq Rule.current Rule.current := by
  refine ⟨.current, fun stream left shares inside => ?_⟩
  rw [Rule.current_apply, Rule.current_apply]
  exact .ok (shares.current inside).symm shares

theorem advance : revision.Tracks Eq Rule.advance Rule.advance := by
  refine ⟨.advance, fun stream left shares inside => ?_⟩
  have here : stream.position ≤ revision.last :=
    Nat.le_trans (position_le_of_forward .advance shares.ended) inside
  rw [Rule.advance_apply, Rule.advance_apply]
  exact .ok (shares.current here).symm (shares.next here)

theorem seesAny (kinds : List Kind) :
    revision.Tracks Eq (Rule.seesAny kinds) (Rule.seesAny kinds) := by
  refine ⟨.seesAny kinds, fun stream left shares inside => ?_⟩
  rw [Rule.seesAny_apply, Rule.seesAny_apply, shares.current inside]
  exact .ok rfl shares

theorem fail (cause : Token → SyntaxError.Cause) :
    revision.Tracks same (Rule.fail cause) (Rule.fail cause) := by
  refine ⟨.fail cause, fun stream left shares inside => ?_⟩
  rw [Rule.fail_apply, Rule.fail_apply, shares.current inside]
  exact .error rfl shares

theorem failAt (token : Token) (cause : SyntaxError.Cause) :
    revision.Tracks same (Rule.failAt token cause) (Rule.failAt token cause) :=
  ⟨.failAt token cause, fun _ _ shares _ => .error rfl shares⟩

theorem spacing : revision.Tracks Eq Rule.spacing Rule.spacing := by
  refine ⟨.spacing, fun stream left shares inside => ?_⟩
  have bounded := stream.position_skip_takeWhile Token.isSpacing ▸ inside
  obtain ⟨sameRun, -, behind⟩ := shares.takeWhile Token.isSpacing bounded
  simp only [Rule.spacing, sameRun]
  exact .ok rfl behind

/-- The value of a property is cut out in front of the token that ends it. -/
theorem propertyValue :
    revision.Tracks Eq (Rule.propertyValue revision.source)
      (Rule.propertyValue revision.other) := by
  refine ⟨.propertyValue _, fun stream left shares inside => ?_⟩
  have bounded := stream.position_skip_takeWhile (fun token => !token.endsValue) ▸ inside
  obtain ⟨sameRun, kept, behind⟩ := shares.takeWhile (fun token => !token.endsValue) bounded
  simp only [Rule.propertyValue, sameRun, valueOfTokens_eq kept]
  exact .ok rfl behind

/-- Rules in turn. Where the second one stops in front of a common token, so has the first one. -/
theorem bind [HasCounterparts same] {rule : Rule α} {other : Rule β} {later : α → Rule γ}
    {otherLater : β → Rule δ} (earlier : revision.Tracks same rule other)
    (behind : ∀ value answer, same value answer →
      revision.Tracks seen (later value) (otherLater answer)) :
    revision.Tracks seen (rule >>= later) (other >>= otherLater) := by
  have forward (value : α) : Rule.Forward (later value) := by
    obtain ⟨answer, holds⟩ : ∃ answer, same value answer := exists_counterpart value
    exact (behind value answer holds).forward
  refine ⟨.bind earlier.forward forward, fun stream left shares inside => ?_⟩
  rw [bind_apply] at inside
  rw [bind_apply, bind_apply]
  have agree := earlier.reads stream left shares
  generalize other left = otherRead at agree ⊢
  cases read : rule stream with
  | error fault next =>
    rw [read] at inside agree
    cases agree inside with
    | error blamed shares => exact .error blamed shares
  | ok value next =>
    rw [read] at inside agree
    have nextEnded := (earlier.forward.length_le shares.ended read).2
    have here := position_le_of_forward (forward value) nextEnded
    cases agree (Nat.le_trans here inside) with
    | ok holds shares => exact (behind _ _ holds).reads _ _ shares inside

theorem skipSpacing : revision.Tracks Eq Rule.skipSpacing Rule.skipSpacing :=
  .bind .spacing fun _ _ _ => .pure rfl

theorem docs : revision.Tracks (Seen id) Rule.docs Rule.docs :=
  .bind .spacing fun _ _ sameRun => .pure (by rw [sameRun]; rfl)

theorem branch {behind : Token → Option (Rule α)} {otherBehind : Token → Option (Rule β)}
    {otherwise : Rule α} {otherOtherwise : Rule β}
    (alike : ∀ token, Option.Rel (revision.Tracks same) (behind token) (otherBehind token))
    (without : revision.Tracks same otherwise otherOtherwise) :
    revision.Tracks same (Rule.branch behind otherwise)
      (Rule.branch otherBehind otherOtherwise) := by
  rw [Rule.branch_eq, Rule.branch_eq]
  refine .bind .current fun token found isSame => ?_
  subst isSame
  have both := alike token
  generalize behind token = rule at both ⊢
  generalize otherBehind token = other at both ⊢
  cases both with
  | some tracks => exact .bind .advance fun _ _ _ => tracks
  | none => exact without

theorem trailingComment (line : Nat) :
    revision.Tracks Eq (Rule.trailingComment line) (Rule.trailingComment line) := by
  refine .bind .current fun token found isSame => ?_
  subst isSame
  split
  · exact .bind .advance fun _ _ _ => .pure rfl
  · exact .pure rfl

theorem lineEnd : revision.Tracks Eq Rule.lineEnd Rule.lineEnd := by
  refine ⟨Rule.forward_lineEnd, fun stream left shares inside => ?_⟩
  have here : stream.position ≤ revision.last :=
    Nat.le_trans (position_le_of_forward Rule.forward_lineEnd shares.ended) inside
  rw [Rule.lineEnd_apply, Rule.lineEnd_apply, shares.current here]
  split
  · exact .ok rfl (shares.next here)
  split
  · exact .ok rfl shares
  · exact (fail _).reads stream left shares here

/-- The lines may go on differently, but a depth that is enough for both reads the same type. -/
theorem typeExpr (nested : ∀ depth,
      revision.Tracks Eq (Rule.typeWithin depth) (Rule.typeWithin depth)) :
    revision.Tracks Eq Rule.typeExpr Rule.typeExpr := by
  refine ⟨Rule.consumes_typeExpr.forward, fun stream left shares inside => ?_⟩
  have enough := Nat.le_max_left (Rule.lineLength stream) (Rule.lineLength left)
  have otherEnough := Nat.le_max_right (Rule.lineLength stream) (Rule.lineLength left)
  rw [← Rule.typeWithin_eq_typeExpr shares.ended enough] at inside ⊢
  rw [← Rule.typeWithin_eq_typeExpr shares.otherEnded otherEnough]
  exact (nested _).reads stream left shares inside

/-- The rounds of a loop are tracked up to a common token behind the last of them. -/
theorem rounds {round : Rule (Option α)} {other : Rule (Option β)}
    (tracks : revision.Tracks (Option.Rel same) round other) {stream left last : Stream}
    {items : List α} (run : Rounds round stream items last) (shares : revision.Shares stream left)
    (inside : last.position ≤ revision.last) :
    ∃ answers otherLast, List.Forall₂ same items answers ∧ Rounds other left answers otherLast ∧
      revision.Shares last otherLast := by
  induction run generalizing left with
  | none stream => exact ⟨[], left, .nil, .none left, shares⟩
  | @more stream next last item items read later inductionHypothesis =>
    have nextEnded := (tracks.forward.length_le shares.ended read).2
    have here : next.position ≤ last.position := by
      obtain ⟨count, rfl⟩ := tracks.forward.rounds later nextEnded
      exact Nat.le_add_right _ _
    have agree := tracks.reads stream left shares
      (by rw [read]; exact Nat.le_trans here inside)
    rw [read] at agree
    generalize answered : other left = otherRead at agree
    cases agree with
    | ok holds shares =>
      cases holds with
      | some sameItem =>
        obtain ⟨answers, otherLast, sameItems, otherLater, lastShares⟩ :=
          inductionHypothesis shares inside
        exact ⟨_, otherLast, .cons sameItem sameItems, .more answered otherLater, lastShares⟩

/-- A loop ends where the round behind its last item does, in both texts. -/
theorem roundEnds {round : Rule (Option α)} {other : Rule (Option β)}
    (tracks : revision.Tracks (Option.Rel same) round other) {stream left last next : Stream}
    {items : List α} {fault : Option SyntaxError} (shares : revision.Shares stream left)
    (run : Rounds round stream items last) (ended : round last = roundEnd fault next)
    (inside : next.position ≤ revision.last) :
    ∃ answers otherLast otherNext, List.Forall₂ same items answers ∧
      Rounds other left answers otherLast ∧ other otherLast = roundEnd fault otherNext ∧
      revision.Shares next otherNext := by
  obtain ⟨count, rfl⟩ := tracks.forward.rounds run shares.ended
  have behind : Rule.streamBehind (round (stream.skip count)) = next := by
    rw [ended]
    cases fault <;> rfl
  have here := position_le_of_forward tracks.forward (shares.ended.skip count)
  rw [behind] at here
  obtain ⟨answers, otherLast, sameItems, otherRun, lastShares⟩ :=
    tracks.rounds run shares (Nat.le_trans here inside)
  have agree := tracks.reads _ _ lastShares (by rw [behind]; exact inside)
  rw [ended] at agree
  generalize answered : other otherLast = otherRead at agree
  cases fault with
  | none =>
    cases agree with
    | ok holds shares =>
      cases holds
      exact ⟨answers, otherLast, _, sameItems, otherRun, answered, shares⟩
  | some fault =>
    cases agree with
    | error blamed shares =>
      subst blamed
      exact ⟨answers, otherLast, _, sameItems, otherRun, answered, shares⟩

/-- A loop whose rounds take tokens is tracked as its rounds are. -/
theorem many {round : Rule (Option α)} {other : Rule (Option β)}
    (tracks : revision.Tracks (Option.Rel same) round other)
    (shrinks : ShrinksWithin Stream.Ended round) (otherShrinks : ShrinksWithin Stream.Ended other) :
    revision.Tracks (List.Forall₂ same) (many round) (many other) := by
  refine ⟨tracks.forward.many shrinks, fun stream left shares inside => ?_⟩
  cases read : ApiDescription.many round stream with
  | ok items next =>
    rw [read] at inside
    obtain ⟨last, run, ended⟩ := (many_eq_ok_iff shrinks shares.ended).mp read
    obtain ⟨answers, otherLast, otherNext, sameItems, otherRun, otherEnded, nextShares⟩ :=
      tracks.roundEnds shares run (show _ = roundEnd none _ from ended) inside
    rw [(many_eq_ok_iff otherShrinks shares.otherEnded).mpr ⟨otherLast, otherRun, otherEnded⟩]
    exact .ok sameItems nextShares
  | error fault next =>
    rw [read] at inside
    obtain ⟨items, last, run, ended⟩ := (many_eq_error_iff shrinks shares.ended).mp read
    obtain ⟨answers, otherLast, otherNext, -, otherRun, otherEnded, nextShares⟩ :=
      tracks.roundEnds shares run (show _ = roundEnd (some fault) _ from ended) inside
    rw [(many_eq_error_iff otherShrinks shares.otherEnded).mpr
      ⟨answers, otherLast, otherRun, otherEnded⟩]
    exact .error rfl nextShares

/-- A loop between brackets asks in every round whether it is over. -/
theorem many_untilClosed {led : γ → γ → Prop} [HasCounterparts led] [HasCounterparts same]
    {lead : Rule γ} {closing : Kind} {fault : SyntaxError.Cause} {item : γ → Rule α}
    {otherItem : γ → Rule β}
    (consumes : ∀ value, Rule.Consumes (item value))
    (otherConsumes : ∀ value, Rule.Consumes (otherItem value))
    (leads : revision.Tracks led lead lead)
    (items : ∀ value answer, led value answer →
      revision.Tracks same (item value) (otherItem answer)) :
    revision.Tracks (List.Forall₂ same)
      (ApiDescription.many (Rule.untilClosed lead closing fault item))
      (ApiDescription.many (Rule.untilClosed lead closing fault otherItem)) := by
  have round : revision.Tracks (Option.Rel same) (Rule.untilClosed lead closing fault item)
      (Rule.untilClosed lead closing fault otherItem) := by
    rw [Rule.untilClosed_eq, Rule.untilClosed_eq]
    refine .bind leads fun value answer sameLed => .branch (fun token => ?_)
      (.bind .current fun token found isSame => ?_)
    · split
      · exact .some (.pure .none)
      · exact .none
    · subst isSame
      split
      · exact .fail _
      · exact .bind (items value answer sameLed) fun _ _ sameItem => .pure (.some sameItem)
  exact round.many (Rule.shrinks_untilClosed leads.forward consumes)
    (Rule.shrinks_untilClosed leads.forward otherConsumes)

end Tracks

/-- Readings of the two texts. -/
def simulation (revision : Revision) : LineSimulation where
  source := revision.source
  other := revision.other
  Alike token found := token = found
  Relates _ _ same rule other := revision.Tracks same rule other
  kind alike := alike ▸ rfl
  value alike := alike ▸ rfl
  counterpart token := ⟨token, rfl⟩
  pure := .pure
  bind := .bind
  fail _ := .fail _
  failAt alike _ := alike ▸ .failAt _ _
  seesAny _ := .seesAny _
  branch _ _ alike without := .branch (fun token => alike token _ rfl) without
  typeExpr := .typeExpr
  propertyValue := .propertyValue
  items _ consumes consumes' related :=
    .many_untilClosed (fun _ => consumes) (fun _ => consumes') .skipSpacing fun _ _ _ => related
  keep := id
  parted := id
  met := id
  current := .current
  trailingComment alike := alike ▸ .trailingComment _
  lineEnd := .lineEnd
  skipSpacing := .skipSpacing
  docs := .docs
  block _ _ consumes consumes' leads items := .many_untilClosed consumes consumes' leads items
  many shrinks shrinks' related := .many related shrinks shrinks'

/-- What a document says is settled as far as reading gets. -/
theorem Settles.document (file : Path) :
    revision.Settles (Rule.document file revision.source)
      (Rule.document file revision.other) := by
  have tracks : revision.Tracks Eq (Rule.document file revision.source)
      (Rule.document file revision.other) := by
    refine .bind revision.simulation.declarations fun declarations answers isSame => ?_
    rw [Seen, show revision.simulation.keep = id from rfl, Declaration.map_mapDocs_id] at isSame
    exact .pure (congrArg (Document.ofDeclarations (some file)) isSame.symm)
  refine ⟨tracks.forward, fun stream left shares inside => ?_⟩
  have agree := tracks.reads stream left shares inside
  generalize Rule.document file revision.source stream = read at agree ⊢
  generalize Rule.document file revision.other left = otherRead at agree ⊢
  cases agree with
  | ok holds shares =>
    subst holds
    exact .ok shares
  | error blamed shares =>
    subst blamed
    exact .error shares

end Revision

end ApiDescription
