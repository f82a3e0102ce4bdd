import ApiDescription.Proofs.Grammar.Shape

/-!
# Rules move forward

Whatever a rule answers, it leaves the stream some tokens further on than it found
it, and an item of a loop takes at least one token. The second is what ends every
loop of the grammar: its rounds shrink the stream, as long as the stream ends with
an end of text, which no rule passes.
-/

namespace ApiDescription

namespace Stream

/-- Two movements in turn are one movement over both distances. -/
theorem skip_skip (stream : Stream) (first second : Nat) :
    (stream.skip first).skip second = stream.skip (first + second) := by
  simp only [skip, List.drop_drop, List.take_add, List.length_append, Nat.add_assoc]

/-- Skipping nothing leaves the stream as it is. -/
theorem skip_zero (stream : Stream) : stream.skip 0 = stream := by
  simp [skip]

/-- A stream is not longer further on. -/
theorem length_ahead_skip (stream : Stream) (count : Nat) :
    (stream.skip count).ahead.length ≤ stream.ahead.length := by
  simp [skip]

/-- A stream that ends with an end of text still does further on. -/
theorem Ended.skip {stream : Stream} (ended : stream.Ended) (count : Nat) :
    (stream.skip count).Ended := ended

end Stream

namespace Rule

variable {α β : Type}

/-- The stream behind a rule, whether it failed or not. -/
def streamBehind : EStateM.Result SyntaxError Stream α → Stream
  | .ok _ next | .error _ next => next

/-- A rule that leaves the stream some tokens further on, also when it fails. -/
def Forward (rule : Rule α) : Prop :=
  ∀ stream, stream.Ended → ∃ count, streamBehind (rule stream) = stream.skip count

/-- A rule that takes at least one token whenever it succeeds. -/
structure Consumes (rule : Rule α) : Prop where
  forward : Forward rule
  fewer : ∀ stream value next, stream.Ended → rule stream = .ok value next →
    next.ahead.length < stream.ahead.length

namespace Forward

/-- What is behind a rule that succeeds. -/
theorem of_ok {rule : Rule α} (forward : Forward rule) {stream next : Stream} {value : α}
    (ended : stream.Ended) (read : rule stream = .ok value next) :
    ∃ count, next = stream.skip count := by
  obtain ⟨count, behind⟩ := forward stream ended
  rw [read] at behind
  exact ⟨count, behind⟩

/-- A rule never lengthens the stream, and keeps its end. -/
theorem length_le {rule : Rule α} (forward : Forward rule) {stream next : Stream} {value : α}
    (ended : stream.Ended) (read : rule stream = .ok value next) :
    next.ahead.length ≤ stream.ahead.length ∧ next.Ended := by
  obtain ⟨count, rfl⟩ := forward.of_ok ended read
  exact ⟨stream.length_ahead_skip count, ended⟩

/-- A rule that stays where it is. -/
theorem stay {rule : Rule α} (stays : ∀ stream, streamBehind (rule stream) = stream) :
    Forward rule :=
  fun stream _ => ⟨0, by rw [stays, stream.skip_zero]⟩

/-- A rule that stays where it is or moves behind the next token. -/
theorem atMostOne {rule : Rule α}
    (moves : ∀ stream, streamBehind (rule stream) = stream ∨
      streamBehind (rule stream) = stream.next) : Forward rule := by
  intro stream _
  rcases moves stream with stays | moved
  · exact ⟨0, by rw [stays, stream.skip_zero]⟩
  · exact ⟨1, by rw [moved, stream.skip_one]⟩

theorem pure (value : α) : Forward (pure value) := stay fun _ => rfl

theorem current : Forward current := stay fun _ => rfl

theorem sees (kind : Kind) : Forward (sees kind) := stay fun _ => rfl

theorem seesAny (kinds : List Kind) : Forward (seesAny kinds) := stay fun _ => rfl

theorem fail (cause : Token → SyntaxError.Cause) : Forward (fail cause : Rule α) :=
  stay fun _ => rfl

theorem failAt (token : Token) (cause : SyntaxError.Cause) :
    Forward (failAt token cause : Rule α) := stay fun _ => rfl

theorem advance : Forward advance := atMostOne fun _ => .inr rfl

theorem spacing : Forward spacing := fun _ _ => ⟨_, rfl⟩

theorem propertyValue (source : List Char) : Forward (propertyValue source) :=
  fun _ _ => ⟨_, rfl⟩

/-- Rules in turn move forward if each of them does. -/
theorem bind {first : Rule α} {second : α → Rule β} (forward : Forward first)
    (later : ∀ value, Forward (second value)) : Forward (first >>= second) := by
  intro stream ended
  obtain ⟨count, behind⟩ := forward stream ended
  rw [bind_apply]
  cases read : first stream with
  | error fault next =>
    rw [read] at behind
    exact ⟨count, behind⟩
  | ok value next =>
    rw [read] at behind
    obtain rfl : next = stream.skip count := behind
    obtain ⟨more, finish⟩ := later value (stream.skip count) (ended.skip count)
    exact ⟨count + more, by rw [← stream.skip_skip]; exact finish⟩

/-- A choice moves forward if both sides do. -/
theorem ite {condition : Prop} [Decidable condition] {first second : Rule α}
    (forward : Forward first) (other : Forward second) :
    Forward (if condition then first else second) := by
  split
  · exact forward
  · exact other

end Forward

namespace Consumes

/-- Rules in turn take a token if the first one does. -/
theorem bind {first : Rule α} {second : α → Rule β} (consumes : Consumes first)
    (later : ∀ value, Forward (second value)) : Consumes (first >>= second) := by
  refine ⟨consumes.forward.bind later, ?_⟩
  intro stream value next ended read
  obtain ⟨found, middle, readFirst, readSecond⟩ := bind_eq_ok_iff.mp read
  have fewer := consumes.fewer stream found middle ended readFirst
  have bounded := (later found).length_le
    (consumes.forward.length_le ended readFirst).2 readSecond
  omega

/-- Rules in turn take a token if the second one does. -/
theorem bind_right {first : Rule α} {second : α → Rule β} (forward : Forward first)
    (consumes : ∀ value, Consumes (second value)) : Consumes (first >>= second) := by
  refine ⟨forward.bind fun value => (consumes value).forward, ?_⟩
  intro stream value next ended read
  obtain ⟨found, middle, readFirst, readSecond⟩ := bind_eq_ok_iff.mp read
  obtain ⟨bounded, stays⟩ := forward.length_le ended readFirst
  have fewer := (consumes found).fewer middle value next stays readSecond
  omega

/-- A choice takes a token if both sides do. -/
theorem ite {condition : Prop} [Decidable condition] {first second : Rule α}
    (consumes : Consumes first) (other : Consumes second) :
    Consumes (if condition then first else second) := by
  split
  · exact consumes
  · exact other

/-- A rule that fails takes no token, and never succeeds. -/
theorem fail (cause : Token → SyntaxError.Cause) : Consumes (fail cause : Rule α) :=
  ⟨.fail cause, fun _ _ _ _ read => nomatch read⟩

end Consumes

/-- A token of a kind other than the end of the text is one that is ahead. -/
theorem length_next_lt {stream : Stream} (ended : stream.Ended)
    (kind : stream.current.kind ≠ .endOfText) :
    stream.next.ahead.length < stream.ahead.length := by
  have positive := List.length_pos_iff.mpr (Stream.ahead_ne_nil ended kind)
  rw [Stream.length_ahead_next]
  omega

theorem forward_expect (kind : Kind) : Forward (expect kind) :=
  .bind (.sees kind) fun _ => .ite .advance (.fail _)

theorem consumes_expect {kind : Kind} (goesOn : kind ≠ .endOfText) : Consumes (expect kind) := by
  constructor
  case forward => exact forward_expect kind
  case fewer =>
    intro stream value next ended read
    rw [expect_apply] at read
    split at read
    · next found =>
      cases read
      exact length_next_lt ended (found ▸ goesOn)
    · exact nomatch read

theorem consumes_expectName : Consumes expectName := by
  constructor
  case forward => exact .bind .current fun _ => .ite .advance (.fail _)
  case fewer =>
    intro stream value next ended read
    rw [expectName_apply] at read
    split at read
    · next found =>
      cases read
      refine length_next_lt ended fun atEnd => ?_
      simp [Token.isName, atEnd] at found
    · exact nomatch read

theorem forward_accepts (kind : Kind) : Forward (accepts kind) :=
  .bind (.sees kind) fun _ => .ite (.bind .advance fun _ => .pure _) (.pure _)

theorem forward_skipSpacing : Forward skipSpacing := .bind .spacing fun _ => .pure _

theorem forward_docs : Forward docs := .bind .spacing fun _ => .pure _

theorem forward_trailingComment (line : Nat) : Forward (trailingComment line) :=
  .bind .current fun _ => .ite (.bind .advance fun _ => .pure _) (.pure _)

theorem forward_lineEnd : Forward lineEnd :=
  .bind (.sees _) fun _ =>
    .ite (.bind .advance fun _ => .pure _) (.bind (.seesAny _) fun _ => .ite (.pure _) (.fail _))

/-- The rounds of a loop move forward together if each of them does. -/
theorem Forward.rounds {round : Rule (Option α)} (forward : Forward round) {stream last : Stream}
    {items : List α} (run : Rounds round stream items last) (ended : stream.Ended) :
    ∃ count, last = stream.skip count := by
  induction run with
  | none stream => exact ⟨0, stream.skip_zero.symm⟩
  | more read _ inductionHypothesis =>
    obtain ⟨count, rfl⟩ := forward.of_ok ended read
    obtain ⟨more, rfl⟩ := inductionHypothesis (ended.skip count)
    exact ⟨count + more, Stream.skip_skip _ _ _⟩

/-- A loop moves forward if its rounds do, and every item leaves less to read. -/
theorem Forward.many {round : Rule (Option α)} (forward : Forward round)
    (shrinks : ShrinksWithin Stream.Ended round) : Forward (many round) := by
  intro stream ended
  obtain ⟨last, run, finish⟩ := exists_rounds_collect shrinks ended
  obtain ⟨count, rfl⟩ := forward.rounds run ended
  obtain ⟨more, behind⟩ := forward (stream.skip count) (ended.skip count)
  refine ⟨count + more, ?_⟩
  rw [finish, Stream.skip_skip] at behind
  rw [← behind, ApiDescription.many]
  cases (collect round stream).fault <;> rfl

section Loops

variable {lead : Rule β} {closing : Kind} {fault : SyntaxError.Cause} {item : β → Rule α}

theorem forward_untilClosed (before : Forward lead) (forward : ∀ led, Forward (item led)) :
    Forward (untilClosed lead closing fault item) :=
  .bind before fun led => .bind (forward_accepts closing) fun _ =>
    .ite (.pure _) <| .bind (.sees _) fun _ =>
      .ite (.bind (.fail _) fun _ => .bind (forward led) fun _ => .pure _)
        (.bind (forward led) fun _ => .pure _)

/-- A round of a loop between brackets takes as many tokens as its item. -/
theorem shrinks_untilClosed (before : Forward lead) (consumes : ∀ led, Consumes (item led)) :
    ShrinksWithin Stream.Ended (untilClosed lead closing fault item) := by
  intro stream value next ended read
  cases ahead : lead stream with
  | error failure middle =>
    rw [untilClosed_error ahead] at read
    exact nomatch read
  | ok led middle =>
    obtain ⟨bounded, stays⟩ := before.length_le ended ahead
    rw [untilClosed_apply ahead] at read
    split at read
    · exact nomatch read
    split at read
    · exact nomatch read
    obtain ⟨_, _, readItem, answered⟩ := bind_eq_ok_iff.mp read
    cases answered
    have fewer := (consumes led).fewer middle _ next stays readItem
    exact ⟨Nat.lt_of_lt_of_le fewer bounded,
      ((consumes led).forward.length_le stays readItem).2⟩

end Loops

/-- A closing bracket ends a loop whose items take tokens. -/
theorem forward_many_untilClosed {lead : Rule β} {closing : Kind} {fault : SyntaxError.Cause}
    {item : β → Rule α} (before : Forward lead) (consumes : ∀ led, Consumes (item led)) :
    Forward (many (untilClosed lead closing fault item)) :=
  (forward_untilClosed before fun led => (consumes led).forward).many
    (shrinks_untilClosed before consumes)

theorem consumes_property (source : List Char) : Consumes (property source) :=
  consumes_expectName.bind fun _ =>
    .bind (consumes_expect (by decide)).forward fun _ =>
      .bind (.propertyValue source) fun _ => .pure _

theorem consumes_importedFile : Consumes importedFile :=
  (consumes_expect (by decide)).bind fun _ => .pure _

theorem shrinks_property? (source : List Char) :
    ShrinksWithin Stream.Ended (property? source) := by
  rw [property?_eq]
  exact shrinks_untilClosed forward_skipSpacing fun _ => consumes_property source

theorem consumes_propertyBlock (source : List Char) : Consumes (propertyBlock source) := by
  refine (consumes_expect (by decide)).bind fun _ => .bind ?_ fun _ => .pure _
  rw [property?_eq]
  exact forward_many_untilClosed forward_skipSpacing fun _ => consumes_property source

theorem consumes_version : Consumes version :=
  (consumes_expect (by decide)).bind fun _ =>
    .bind (consumes_expect (by decide)).forward fun _ =>
      .bind (consumes_expect (by decide)).forward fun _ =>
        .bind (forward_trailingComment _) fun _ => .bind forward_lineEnd fun _ => .pure _

theorem consumes_info (source : List Char) : Consumes (info source) :=
  (consumes_expect (by decide)).bind fun _ =>
    .bind (consumes_propertyBlock source).forward fun _ => .pure _

theorem consumes_imports : Consumes imports := by
  refine (consumes_expect (by decide)).bind fun _ =>
    .bind (forward_accepts _) fun _ => .ite ?_ ?_
  · rw [groupedImport?_eq]
    exact forward_many_untilClosed forward_skipSpacing fun _ => consumes_importedFile
  · exact .bind (consumes_expect (by decide)).forward fun _ =>
      .bind forward_lineEnd fun _ => .pure _

theorem forward_qualifiedName (first : Text) : Forward (qualifiedName first) :=
  .bind (forward_accepts _) fun _ =>
    .ite (.bind (consumes_expect (by decide)).forward fun _ => .pure _) (.pure _)

theorem forward_textIf (kind : Kind) : Forward (textIf kind) :=
  .bind (.sees kind) fun _ => .ite (.bind .advance fun _ => .pure _) (.pure _)

/-- What stands behind the first token of a type moves forward if the types inside do. -/
theorem forward_typeBehind {depth : Nat} (inner : Forward (typeWithin depth)) {first : Token}
    {behind : Rule TypeExpr} (found : typeBehind depth first = some behind) : Forward behind := by
  have expects {kind : Kind} (goesOn : kind ≠ .endOfText) : Forward (expect kind) :=
    (consumes_expect goesOn).forward
  unfold typeBehind at found
  split at found
  case h_1 =>
    cases found
    exact .bind inner fun _ => .pure _
  case h_2 =>
    cases found
    exact .bind (forward_textIf _) fun _ => .bind (expects (by decide)) fun _ =>
      .bind inner fun _ => .pure _
  case h_3 =>
    cases found
    exact .bind (expects (by decide)) fun _ => .bind inner fun _ =>
      .bind (expects (by decide)) fun _ => .bind inner fun _ => .pure _
  case h_4 =>
    cases found
    exact .bind (expects (by decide)) fun _ => .bind (expects (by decide)) fun _ => .pure _
  case h_5 =>
    cases found
    exact .bind (forward_qualifiedName _) fun _ => .pure _
  case h_6 => exact nomatch found

/-- A type begins with a token that is not the end of the text. -/
theorem goesOn_of_typeBehind {depth : Nat} {first : Token} {behind : Rule TypeExpr}
    (found : typeBehind depth first = some behind) : first.kind ≠ .endOfText := by
  intro atEnd
  simp [typeBehind, atEnd] at found

/-- A type expression takes a token, however deeply it is nested. -/
theorem consumes_typeWithin (depth : Nat) : Consumes (typeWithin depth) := by
  induction depth with
  | zero => exact .fail _
  | succ depth inductionHypothesis =>
    have inner := inductionHypothesis.forward
    constructor
    case forward =>
      intro stream ended
      rw [typeWithin_succ_apply]
      cases found : typeBehind depth stream.current with
      | none => exact Forward.fail _ stream ended
      | some behind =>
        obtain ⟨count, finish⟩ := forward_typeBehind inner found (stream.skip 1) (ended.skip 1)
        rw [Stream.skip_skip, Stream.skip_one] at finish
        exact ⟨_, finish⟩
    case fewer =>
      intro stream value next ended read
      rw [typeWithin_succ_apply] at read
      cases found : typeBehind depth stream.current with
      | none =>
        rw [found] at read
        exact nomatch read
      | some behind =>
        rw [found] at read
        have fewer := length_next_lt ended (goesOn_of_typeBehind found)
        have nextEnded : stream.next.Ended := by
          rw [← Stream.skip_one]
          exact ended.skip 1
        have bounded := (forward_typeBehind inner found).length_le nextEnded read
        omega

theorem consumes_typeExpr : Consumes typeExpr :=
  ⟨fun stream => (consumes_typeWithin _).forward stream,
    fun stream => (consumes_typeWithin _).fewer stream⟩

theorem forward_bodyType : Forward bodyType :=
  (consumes_expect (by decide)).forward.bind fun _ => .bind (forward_accepts _) fun _ =>
    .ite (.pure _) <| .bind consumes_typeExpr.forward fun _ =>
      .bind (consumes_expect (by decide)).forward fun _ => .pure _

theorem forward_bodyIf {found : Rule Bool} (forward : Forward found) : Forward (bodyIf found) :=
  .bind forward fun _ => .ite forward_bodyType (.pure _)

theorem forward_refuseIf {condition : Prop} [Decidable condition] (token : Token)
    (cause : SyntaxError.Cause) : Forward (refuseIf condition token cause) :=
  .ite (.failAt token cause) (.pure _)

theorem consumes_memberHead : Consumes memberHead :=
  .bind_right (.sees _) fun _ => .ite
    (consumes_typeExpr.bind fun _ => .pure _)
    (consumes_expectName.bind fun _ => .bind (.sees _) fun _ => .ite
      (.bind (forward_qualifiedName _) fun _ => .pure _)
      (.bind (.seesAny _) fun _ => .ite
        (.bind consumes_typeExpr.forward fun _ => .pure _) (.pure _)))

theorem consumes_member (docs : List Text) : Consumes (member docs) := by
  rw [member_eq]
  exact .bind_right .current fun _ => consumes_memberHead.bind fun _ =>
    .bind (forward_textIf _) fun _ => .bind (forward_trailingComment _) fun _ =>
      .bind forward_lineEnd fun _ => .pure _

theorem shrinks_member? : ShrinksWithin Stream.Ended member? := by
  rw [member?_eq]
  exact shrinks_untilClosed forward_docs consumes_member

theorem forward_members : Forward members := by
  rw [members, member?_eq]
  exact forward_many_untilClosed forward_docs consumes_member

theorem consumes_typeBody (docs : List Text) : Consumes (typeBody docs) :=
  consumes_expectName.bind fun _ => .bind (forward_accepts _) fun _ => .ite
    (.bind (consumes_expect (by decide)).forward fun _ =>
      .bind forward_members fun _ => .pure _)
    (.bind (forward_accepts _) fun _ => .ite
      (.bind forward_members fun _ => .pure _)
      (.bind (forward_accepts _) fun _ => .bind consumes_typeExpr.forward fun _ =>
        .bind forward_lineEnd fun _ => .pure _))

theorem shrinks_groupedType? : ShrinksWithin Stream.Ended groupedType? := by
  rw [groupedType?_eq]
  exact shrinks_untilClosed forward_docs consumes_typeBody

theorem consumes_typeDecls (docs : List Text) : Consumes (typeDecls docs) := by
  refine (consumes_expect (by decide)).bind fun _ => .bind (forward_accepts _) fun _ =>
    .ite ?_ (.bind (consumes_typeBody docs).forward fun _ => .pure _)
  rw [groupedType?_eq]
  exact forward_many_untilClosed forward_docs consumes_typeBody

theorem forward_noteBehind (source : List Char) (found : Marker) :
    Forward (noteBehind source found) := by
  cases found with
  | doc =>
    exact .bind (.sees _) fun _ => .ite (.bind .advance fun _ => .pure _)
      (.bind (consumes_propertyBlock source).forward fun _ => .pure _)
  | server => exact .bind (consumes_propertyBlock source).forward fun _ => .pure _
  | handler => exact .bind consumes_expectName.forward fun _ => .pure _

theorem forward_routeNote? (source : List Char) : Forward (routeNote? source) := by
  intro stream ended
  rw [routeNote?_apply]
  split
  · next found kind =>
    exact Forward.bind .advance (fun _ => .bind (forward_noteBehind source found) fun _ =>
      .bind forward_skipSpacing fun _ => .pure _) stream ended
  · exact ⟨0, stream.skip_zero.symm⟩

/-- An annotation takes the marker that introduces it. -/
theorem shrinks_routeNote? (source : List Char) :
    ShrinksWithin Stream.Ended (routeNote? source) := by
  intro stream note next ended read
  have stays := ((forward_routeNote? source).length_le ended read).2
  rw [routeNote?_apply] at read
  split at read
  · next found kind =>
    have behind : Forward (noteBehind source found >>= fun note => skipSpacing >>= fun _ =>
        pure (some note)) :=
      .bind (forward_noteBehind source found) fun _ => .bind forward_skipSpacing fun _ => .pure _
    have nextEnded : stream.next.Ended := by
      rw [← Stream.skip_one]
      exact ended.skip 1
    have fewer := length_next_lt ended (by simp [kind])
    have bounded := (behind.length_le nextEnded read).1
    exact ⟨Nat.lt_of_le_of_lt bounded fewer, stays⟩
  · exact nomatch read

theorem consumes_routeLine (notes : RouteNotes) (docs : List Text) :
    Consumes (routeLine notes docs) :=
  consumes_expectName.bind fun _ => .bind (forward_refuseIf _ _) fun _ =>
    .bind (consumes_expect (by decide)).forward fun _ =>
      .bind (forward_bodyIf (.sees _)) fun _ => .bind (forward_bodyIf (forward_accepts _)) fun _ =>
        .bind (forward_trailingComment _) fun _ => .bind forward_lineEnd fun _ =>
          .bind (forward_refuseIf _ _) fun _ => .pure _

theorem consumes_route (source : List Char) (docs : List Text) : Consumes (route source docs) := by
  rw [route_eq]
  exact .bind_right ((forward_routeNote? source).many (shrinks_routeNote? source))
    fun _ => consumes_routeLine _ docs

theorem shrinks_route? (source : List Char) (service : String) :
    ShrinksWithin Stream.Ended (route? source service) := by
  rw [route?_eq]
  exact shrinks_untilClosed forward_docs (consumes_route source)

theorem forward_groupServer (source : List Char) : Forward (groupServer source) :=
  .bind (forward_accepts _) fun _ => .ite
    (.bind (consumes_propertyBlock source).forward fun _ => .bind forward_skipSpacing fun _ =>
      .pure _)
    (.pure _)

theorem consumes_serviceGroup (source : List Char) : Consumes (serviceGroup source) := by
  refine .bind_right (forward_groupServer source) fun _ =>
    (consumes_expect (by decide)).bind fun _ => .bind consumes_expectName.forward fun name =>
      .bind (consumes_expect (by decide)).forward fun _ => .bind ?_ fun _ => .pure _
  rw [route?_eq]
  exact forward_many_untilClosed forward_docs (consumes_route source)

/-- Every declaration takes a token. -/
theorem consumes_declarationOf {source : List Char} {docs : List Text} {kind : Kind}
    {declared : Rule Declaration} (found : declarationOf source docs kind = some declared) :
    Consumes declared := by
  unfold declarationOf at found
  split at found
  case h_1 =>
    cases found
    exact consumes_version.bind fun _ => .pure _
  case h_2 =>
    cases found
    exact (consumes_info source).bind fun _ => .pure _
  case h_3 =>
    cases found
    exact consumes_imports.bind fun _ => .pure _
  case h_4 =>
    cases found
    exact (consumes_typeDecls docs).bind fun _ => .pure _
  case h_5 | h_6 =>
    cases found
    exact (consumes_serviceGroup source).bind fun _ => .pure _
  case h_7 => exact nomatch found

theorem forward_declarationBelow (source : List Char) (docs : List Text) :
    Forward (declarationBelow source docs) := by
  intro stream ended
  unfold declarationBelow
  split
  · next declared found =>
    exact ((consumes_declarationOf found).bind fun _ => .pure _).forward stream ended
  · split
    · exact ⟨0, stream.skip_zero.symm⟩
    · exact Forward.fail _ stream ended

theorem forward_declaration? (source : List Char) : Forward (declaration? source) := by
  rw [declaration?_eq]
  exact .bind forward_docs (forward_declarationBelow source)

/-- Below its docs a declaration takes at least the token it begins with. -/
theorem shrinks_declarationBelow (source : List Char) (docs : List Text) :
    ShrinksWithin Stream.Ended (declarationBelow source docs) := by
  intro stream item next ended read
  have stays := ((forward_declarationBelow source docs).length_le ended read).2
  unfold declarationBelow at read
  split at read
  · next declared found =>
    have consumes : Consumes (declared >>= fun declaration => pure (some declaration)) :=
      (consumes_declarationOf found).bind fun _ => .pure _
    exact ⟨consumes.fewer stream _ next ended read, stays⟩
  · split at read <;> exact nomatch read

theorem shrinks_declaration? (source : List Char) :
    ShrinksWithin Stream.Ended (declaration? source) := by
  intro stream item next ended read
  rw [declaration?_eq] at read
  obtain ⟨docs, middle, readDocs, readBelow⟩ := bind_eq_ok_iff.mp read
  obtain ⟨bounded, stays⟩ := forward_docs.length_le ended readDocs
  obtain ⟨fewer, nextEnded⟩ := shrinks_declarationBelow source docs middle item next stays readBelow
  exact ⟨Nat.lt_of_lt_of_le fewer bounded, nextEnded⟩

/-- Where no declaration comes next, the end of the text stands behind the spacing. -/
theorem atEnd_of_none {source : List Char} {stream next : Stream}
    (read : declaration? source stream = .ok none next) :
    next = stream.skip (stream.ahead.takeWhile Token.isSpacing).length ∧
      next.current.kind = .endOfText := by
  rw [declaration?_eq, bind_apply, docs_apply] at read
  dsimp only at read
  unfold declarationBelow at read
  split at read
  · obtain ⟨_, _, _, answered⟩ := bind_eq_ok_iff.mp read
    exact nomatch answered
  · split at read
    · next atEnd =>
      cases read
      exact ⟨rfl, atEnd⟩
    · exact nomatch read

end Rule

end ApiDescription
