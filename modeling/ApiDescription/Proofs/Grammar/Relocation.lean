import ApiDescription.Proofs.Grammar.LineSimulation

/-!
# Rules do not know where they are

A rule asks for the kinds and values of tokens, and whether two of them stand on
the same line. Tokens that are moved to other places without a change in these are
read alike, and a fault is the fault at the place its token was moved to. The
number of tokens read before has no influence either.

`Moves` says so of two rules, which may differ in the source that property values are
cut from, and `Relocates` of two rules that answer the same. Both are kept by the ways in
which rules are built, so that they hold of every rule of the grammar.
-/

namespace ApiDescription

/-- A move of tokens to other places that keeps what they say, and keeps tokens on one line
exactly if they were on one line. -/
structure Relocation where
  token : Token → Token
  line : Nat → Nat
  fault : SyntaxError → SyntaxError
  kind_token : ∀ found, (token found).kind = found.kind
  value_token : ∀ found, (token found).value = found.value
  line_token : ∀ found, (token found).start.line = line found.start.line
  line_injective : Function.Injective line
  fault_located : ∀ (cause : SyntaxError.Cause) (found : Token),
    fault (.located cause found.start) = .located (cause.map token) (token found).start

namespace Relocation

variable (moved : Relocation)

/-- A token that was moved names itself as before. -/
theorem describe_token (found : Token) : (moved.token found).describe = found.describe := by
  simp only [Token.describe, moved.kind_token, moved.value_token]

/-- A cause about tokens that were moved says what it said before. -/
theorem message_map (cause : SyntaxError.Cause) :
    (cause.map moved.token).message = cause.message := by
  cases cause with
  | expectedKind kind found | expectedName found | expectedType found | expectedLineEnd found =>
    exact congrArg (_ ++ ·) (moved.describe_token found)
  | unexpectedDeclaration found =>
    exact congrArg ("Unexpected " ++ · ++ " at top level") (moved.describe_token found)
  | _ => rfl

@[simp] theorem text_token (found : Token) : (moved.token found).text = found.text := by
  simp only [Token.text, moved.value_token]

/-- A stream of tokens that were moved, some tokens further on. -/
def stream (further : Nat) (stream : Stream) : Stream :=
  ⟨stream.ahead.map moved.token, moved.token stream.finish, stream.position + further⟩

@[simp] theorem current_stream (further : Nat) (before : Stream) :
    (moved.stream further before).current = moved.token before.current := by
  obtain ⟨ahead, finish, position⟩ := before
  cases ahead <;> rfl

@[simp] theorem next_stream (further : Nat) (before : Stream) :
    (moved.stream further before).next = moved.stream further before.next := by
  obtain ⟨ahead, finish, position⟩ := before
  cases ahead with
  | nil => rfl
  | cons token ahead => simp only [stream, Stream.next, List.map_cons, Nat.add_right_comm]

@[simp] theorem skip_stream (further : Nat) (before : Stream) (count : Nat) :
    (moved.stream further before).skip count = moved.stream further (before.skip count) := by
  simp only [stream, Stream.skip, List.map_drop, List.length_take, List.length_map,
    Nat.add_right_comm]

/-- The leading tokens of a class that only looks at kinds are moved together. -/
theorem takeWhile_stream {p : Token → Bool} (same : ∀ found, p (moved.token found) = p found)
    (tokens : List Token) :
    (tokens.map moved.token).takeWhile p = (tokens.takeWhile p).map moved.token := by
  have composed : p ∘ moved.token = p := funext same
  rw [List.takeWhile_map, composed]

/-- A result over tokens that were moved. -/
def result {α β : Type} (further : Nat) (value : α → β) :
    EStateM.Result SyntaxError Stream α → EStateM.Result SyntaxError Stream β
  | .ok answer next => .ok (value answer) (moved.stream further next)
  | .error failure next => .error (moved.fault failure) (moved.stream further next)

/-- What one rule reads, another one reads from the tokens moved, up to a map of its answers. -/
def Relocates {α β : Type} (further : Nat) (value : α → β) (rule : Rule α) (other : Rule β) :
    Prop :=
  ∀ stream, other (moved.stream further stream) = moved.result further value (rule stream)

/-- What one rule reads, another one reads from the tokens moved: answers that are the same in some
sense, or the fault moved. -/
def Moves {α β : Type} (further : Nat) (same : α → β → Prop) (rule : Rule α) (other : Rule β) :
    Prop :=
  ∀ stream, Rule.Agree same (fun fault blame => blame = moved.fault fault)
    (fun next left => left = moved.stream further next) (rule stream)
    (other (moved.stream further stream))

variable {moved} {further : Nat} {α β γ δ : Type} {same : α → β → Prop} {seen : γ → δ → Prop}

namespace Moves

theorem pure {value : α} {answer : β} (holds : same value answer) :
    moved.Moves further same (pure value) (pure answer) := fun _ => .ok holds rfl

/-- Rules in turn. -/
theorem bind {rule : Rule α} {other : Rule β} {later : α → Rule γ} {otherLater : β → Rule δ}
    (earlier : moved.Moves further same rule other)
    (behind : ∀ value answer, same value answer →
      moved.Moves further seen (later value) (otherLater answer)) :
    moved.Moves further seen (rule >>= later) (other >>= otherLater) := by
  intro stream
  rw [bind_apply, bind_apply]
  have agree := earlier stream
  generalize rule stream = read at agree ⊢
  generalize other (moved.stream further stream) = otherRead at agree ⊢
  cases agree with
  | ok holds nextMoved =>
    subst nextMoved
    exact behind _ _ holds _
  | error blamed nextMoved => exact .error blamed nextMoved

/-- A fault is moved with the token it is about. -/
theorem fail {cause : Token → SyntaxError.Cause}
    (natural : ∀ move token, cause (move token) = (cause token).map move) :
    moved.Moves further same (Rule.fail cause) (Rule.fail cause) := by
  intro stream
  rw [Rule.fail_apply, Rule.fail_apply, current_stream, natural]
  exact .error (moved.fault_located _ _).symm rfl

theorem failAt {token : Token} {cause : SyntaxError.Cause}
    (natural : ∀ move, cause.map move = cause) :
    moved.Moves further same (Rule.failAt token cause)
      (Rule.failAt (moved.token token) cause) := by
  intro stream
  have blamed := moved.fault_located cause token
  rw [natural] at blamed
  exact .error blamed.symm rfl

theorem seesAny (kinds : List Kind) :
    moved.Moves further Eq (Rule.seesAny kinds) (Rule.seesAny kinds) := by
  intro stream
  rw [Rule.seesAny_apply, Rule.seesAny_apply, current_stream, moved.kind_token]
  exact .ok rfl rfl

theorem current :
    moved.Moves further (fun token found => found = moved.token token) Rule.current
      Rule.current := by
  intro stream
  rw [Rule.current_apply, Rule.current_apply, current_stream]
  exact .ok rfl rfl

theorem branch {behind : Token → Option (Rule α)} {otherBehind : Token → Option (Rule β)}
    {otherwise : Rule α} {otherOtherwise : Rule β}
    (alike : ∀ token, Option.Rel (moved.Moves further same) (behind token)
      (otherBehind (moved.token token)))
    (without : moved.Moves further same otherwise otherOtherwise) :
    moved.Moves further same (Rule.branch behind otherwise)
      (Rule.branch otherBehind otherOtherwise) := by
  intro stream
  unfold Rule.branch
  rw [current_stream, next_stream]
  have both := alike stream.current
  generalize behind stream.current = found at both ⊢
  generalize otherBehind (moved.token stream.current) = other at both ⊢
  cases both with
  | some moves => exact moves stream.next
  | none => exact without stream

theorem spacing :
    moved.Moves further (fun run found => found = run.map moved.token) Rule.spacing
      Rule.spacing := by
  intro stream
  have spaces (found : Token) : (moved.token found).isSpacing = found.isSpacing := by
    simp only [Token.isSpacing, moved.kind_token]
  have run : (moved.stream further stream).ahead.takeWhile Token.isSpacing =
      (stream.ahead.takeWhile Token.isSpacing).map moved.token :=
    moved.takeWhile_stream spaces _
  simp only [Rule.spacing, run, List.length_map, skip_stream]
  exact .ok rfl rfl

theorem skipSpacing : moved.Moves further Eq Rule.skipSpacing Rule.skipSpacing := by
  rw [Rule.skipSpacing_eq]
  exact .bind .spacing fun _ _ _ => .pure rfl

/-- The docs of a run are the same wherever the run stands. -/
theorem docsOfRun_map (run : List Token) (docs : List Text) (feeds : Nat) :
    docsOfRun (run.map moved.token) docs feeds = docsOfRun run docs feeds := by
  induction run generalizing docs feeds with
  | nil => rfl
  | cons token run inductionHypothesis =>
    simp only [List.map_cons, docsOfRun, moved.kind_token, text_token, inductionHypothesis]

theorem docs : moved.Moves further (Seen id) Rule.docs Rule.docs :=
  .bind .spacing fun run found isMoved => by
    subst isMoved
    rw [docsOfRun_map]
    exact .pure rfl

theorem trailingComment (line : Nat) :
    moved.Moves further Eq (Rule.trailingComment line)
      (Rule.trailingComment (moved.line line)) := by
  intro stream
  simp only [Rule.trailingComment_apply, current_stream, moved.kind_token, moved.line_token,
    moved.line_injective.eq_iff, text_token, next_stream]
  split
  · exact .ok rfl rfl
  · exact .ok rfl rfl

theorem lineEnd : moved.Moves further Eq Rule.lineEnd Rule.lineEnd := by
  intro stream
  rw [Rule.lineEnd_apply, Rule.lineEnd_apply, current_stream, moved.kind_token, next_stream]
  split
  · exact .ok rfl rfl
  split
  · exact .ok rfl rfl
  · exact fail (fun _ _ => rfl) stream

/-- A type is given as many levels as its line has tokens. -/
theorem typeExpr (nested : ∀ depth,
      moved.Moves further Eq (Rule.typeWithin depth) (Rule.typeWithin depth)) :
    moved.Moves further Eq Rule.typeExpr Rule.typeExpr := by
  intro stream
  have sameLine (found : Token) : decide ((moved.token found).kind ≠ .newline) =
      decide (found.kind ≠ .newline) := by rw [moved.kind_token]
  have length : Rule.lineLength (moved.stream further stream) = Rule.lineLength stream := by
    have line := moved.takeWhile_stream (p := fun found => decide (found.kind ≠ .newline))
      sameLine stream.ahead
    exact (congrArg List.length line).trans (List.length_map _)
  rw [Rule.typeExpr, Rule.typeExpr, length]
  exact nested _ stream

theorem propertyValue {source other : List Char}
    (agrees : ∀ tokens,
      valueOfTokens other (tokens.map moved.token) = valueOfTokens source tokens) :
    moved.Moves further Eq (Rule.propertyValue source) (Rule.propertyValue other) := by
  intro stream
  have inValue (found : Token) : (!(moved.token found).endsValue) = !found.endsValue := by
    simp only [Token.endsValue, moved.kind_token]
  have value := moved.takeWhile_stream (p := fun found => !found.endsValue) inValue stream.ahead
  unfold Rule.propertyValue
  simp only [Relocation.stream] at value ⊢
  rw [value, agrees, List.length_map]
  exact .ok rfl (moved.skip_stream further stream _)

/-- A run over tokens is a run over the tokens moved. -/
theorem rounds {round : Rule (Option α)} {other : Rule (Option β)}
    (moves : moved.Moves further (Option.Rel same) round other) {stream last : Stream}
    {items : List α} (run : Rounds round stream items last) :
    ∃ answers, List.Forall₂ same items answers ∧
      Rounds other (moved.stream further stream) answers (moved.stream further last) := by
  induction run with
  | none stream => exact ⟨[], .nil, .none _⟩
  | @more stream next last item items read later inductionHypothesis =>
    have agree := moves stream
    rw [read] at agree
    generalize answered : other (moved.stream further stream) = otherRead at agree
    cases agree with
    | ok holds nextMoved =>
      subst nextMoved
      cases holds with
      | some sameItem =>
        obtain ⟨answers, sameItems, otherRun⟩ := inductionHypothesis
        exact ⟨_, .cons sameItem sameItems, .more answered otherRun⟩

/-- A loop over the tokens moved has the same rounds. -/
theorem collectWithin {round : Rule (Option α)} {other : Rule (Option β)}
    (moves : moved.Moves further (Option.Rel same) round other) (more : Nat) (stream : Stream) :
    let series := collectWithin round more stream
    let otherSeries := collectWithin other more (moved.stream further stream)
    List.Forall₂ same series.items otherSeries.items ∧
      otherSeries.fault = series.fault.map moved.fault ∧
      otherSeries.state = moved.stream further series.state := by
  induction more generalizing stream with
  | zero =>
    have agree := moves stream
    rw [ApiDescription.collectWithin, ApiDescription.collectWithin]
    generalize round stream = read at agree ⊢
    generalize other (moved.stream further stream) = otherRead at agree ⊢
    cases agree with
    | error blamed nextMoved => exact ⟨.nil, congrArg some blamed, nextMoved⟩
    | ok holds nextMoved =>
      cases holds with
      | none => exact ⟨.nil, rfl, nextMoved⟩
      | some sameItem => exact ⟨.cons sameItem .nil, rfl, nextMoved⟩
  | succ more inductionHypothesis =>
    have agree := moves stream
    rw [ApiDescription.collectWithin, ApiDescription.collectWithin]
    generalize round stream = read at agree ⊢
    generalize other (moved.stream further stream) = otherRead at agree ⊢
    cases agree with
    | error blamed nextMoved => exact ⟨.nil, congrArg some blamed, nextMoved⟩
    | @ok found answer next left holds nextMoved =>
      subst nextMoved
      cases holds with
      | none => exact ⟨.nil, rfl, rfl⟩
      | some sameItem =>
        obtain ⟨sameItems, sameFault, sameState⟩ := inductionHypothesis next
        exact ⟨.cons sameItem sameItems, sameFault, sameState⟩

theorem many {round : Rule (Option α)} {other : Rule (Option β)}
    (moves : moved.Moves further (Option.Rel same) round other) :
    moved.Moves further (List.Forall₂ same) (many round) (many other) := by
  intro stream
  have left : remaining (moved.stream further stream) = remaining stream := List.length_map _
  obtain ⟨sameItems, sameFault, sameState⟩ := moves.collectWithin (remaining stream) stream
  simp only [ApiDescription.many, collect, left, sameFault]
  cases (ApiDescription.collectWithin round (remaining stream) stream).fault with
  | none => exact .ok sameItems sameState
  | some fault => exact .error rfl sameState

/-- A loop between brackets over the tokens moved has the same items. -/
theorem many_untilClosed {led : γ → γ → Prop} {lead : Rule γ} {closing : Kind}
    {fault : SyntaxError.Cause} {item : γ → Rule α} {otherItem : γ → Rule β}
    (natural : ∀ move, fault.map move = fault) (leads : moved.Moves further led lead lead)
    (items : ∀ value answer, led value answer →
      moved.Moves further same (item value) (otherItem answer)) :
    moved.Moves further (List.Forall₂ same)
      (ApiDescription.many (Rule.untilClosed lead closing fault item))
      (ApiDescription.many (Rule.untilClosed lead closing fault otherItem)) := by
  rw [Rule.untilClosed_eq, Rule.untilClosed_eq]
  refine .many <| .bind leads fun value answer sameLed => .branch (fun token => ?_)
    (.bind .current fun token found isMoved => ?_)
  · rw [moved.kind_token]
    split
    · exact .some (.pure .none)
    · exact .none
  · rw [isMoved, moved.kind_token]
    split
    · exact .fail fun move _ => (natural move).symm
    · exact .bind (items value answer sameLed) fun _ _ sameItem => .pure (.some sameItem)

end Moves

/-- Readings of tokens and of the tokens moved. -/
def simulation (moved : Relocation) (further : Nat) {source other : List Char}
    (agrees : ∀ tokens,
      valueOfTokens other (tokens.map moved.token) = valueOfTokens source tokens) :
    LineSimulation where
  source := source
  other := other
  Alike token found := found = moved.token token
  Relates _ _ same rule rule' := moved.Moves further same rule rule'
  kind alike := alike ▸ moved.kind_token _
  value alike := alike ▸ moved.value_token _
  counterpart token := ⟨moved.token token, rfl⟩
  pure := .pure
  bind := .bind
  fail := .fail
  failAt alike natural := alike ▸ .failAt natural
  seesAny _ := .seesAny _
  branch _ _ alike without := .branch (fun token => alike token _ rfl) without
  typeExpr := .typeExpr
  propertyValue := .propertyValue agrees
  items natural _ _ related := .many_untilClosed natural .skipSpacing fun _ _ _ => related
  keep := id
  parted := id
  met := id
  current := .current
  trailingComment alike := by
    rw [alike, moved.line_token]
    exact .trailingComment _
  lineEnd := .lineEnd
  skipSpacing := .skipSpacing
  docs := .docs
  block natural _ _ _ leads items := .many_untilClosed natural leads items
  many _ _ related := .many related

namespace Relocates

/-- A rule whose answers stay the same relocates. -/
theorem of_moves {view : α → α} {rule other : Rule α} (whole : view = id)
    (moves : moved.Moves further (Seen view) rule other) :
    moved.Relocates further id rule other := by
  subst whole
  intro stream
  have agree := moves stream
  generalize rule stream = read at agree ⊢
  generalize other (moved.stream further stream) = otherRead at agree ⊢
  cases agree with
  | ok holds nextMoved => exact congrArg₂ EStateM.Result.ok holds nextMoved
  | error blamed nextMoved => exact congrArg₂ EStateM.Result.error blamed nextMoved

/-- Without a source a value is made of what its tokens say. -/
theorem valueOfTokens_nil (tokens : List Token) :
    valueOfTokens [] (tokens.map moved.token) = valueOfTokens [] tokens := by
  cases tokens with
  | nil => rfl
  | cons first rest =>
    have texts : Token.text ∘ moved.token = Token.text := funext moved.text_token
    simp [valueOfTokens, moved.kind_token, texts]

theorem routeLine (notes : RouteNotes) (docs : List Text) :
    moved.Relocates further id (Rule.routeLine notes docs) (Rule.routeLine notes docs) :=
  of_moves Route.mapDocs_id
    ((moved.simulation further valueOfTokens_nil).routeLine notes (show Seen id docs docs from rfl))

section Sources

variable {source other : List Char}
  (agrees : ∀ tokens, valueOfTokens other (tokens.map moved.token) = valueOfTokens source tokens)

include agrees

/-- A run over the annotations of a route is one over the tokens moved. -/
theorem rounds_routeNote? {stream last : Stream} {notes : List RouteNote}
    (run : Rounds (Rule.routeNote? source) stream notes last) :
    Rounds (Rule.routeNote? other) (moved.stream further stream) notes
      (moved.stream further last) := by
  obtain ⟨others, same, otherRun⟩ :=
    Moves.rounds ((moved.simulation further agrees).routeNote? .skipSpacing) run
  rwa [eq_of_forall₂ same]

theorem declarations :
    moved.Relocates further id (many (Rule.declaration? source)) (many (Rule.declaration? other)) :=
  of_moves Declaration.map_mapDocs_id (moved.simulation further agrees).declarations

end Sources

end Relocates

end Relocation

end ApiDescription
