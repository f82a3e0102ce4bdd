import ApiDescription.Proofs.Grammar.Progress

/-!
# What rules answer

`Answers` says that whatever a rule answers has a property, if all tokens ahead have
another one. The property of rules in turn is that of the last of them, and what holds
of the answer of a round holds of every item of a loop.
-/

namespace ApiDescription

/-- Every item of a loop is the answer of one of its rounds, in a state the loop runs through. -/
theorem exists_round_of_mem {ε σ α : Type} {round : EStateM ε σ (Option α)} {first last : σ}
    {items : List α} (run : Rounds round first items last) (valid : σ → Prop)
    (stays : ∀ state item next, valid state → round state = .ok (some item) next → valid next)
    (entered : valid first) {item : α} (member : item ∈ items) :
    ∃ state next, valid state ∧ round state = .ok (some item) next := by
  induction run with
  | none _ => simp at member
  | @more state next _ found _ read _ inductionHypothesis =>
    rcases List.mem_cons.mp member with rfl | member
    · exact ⟨state, next, entered, read⟩
    · exact inductionHypothesis (stays _ _ _ entered read) member

namespace Rule

variable {α β : Type} {Known : Token → Prop} {P : α → Prop} {Q : β → Prop}

/-- What a rule reads from tokens that are known to have some property has another one. -/
def Answers (Known : Token → Prop) (P : α → Prop) (rule : Rule α) : Prop :=
  ∀ stream value next, stream.Ended → (∀ token ∈ stream.ahead, Known token) →
    rule stream = .ok value next → P value

namespace Answers

theorem pure {value : α} (holds : P value) : Answers Known P (pure value) := by
  intro stream found next _ _ read
  cases read
  exact holds

/-- What follows from a property of the answer. -/
theorem weaken {P' : α → Prop} {rule : Rule α} (answers : Answers Known P rule)
    (follows : ∀ value, P value → P' value) : Answers Known P' rule :=
  fun stream value next ended known read =>
    follows value (answers stream value next ended known read)

/-- Rules in turn, the second of which relies on the answer of the first. -/
theorem bind {first : Rule α} {second : α → Rule β} (answers : Answers Known P first)
    (forward : Forward first) (later : ∀ value, P value → Answers Known Q (second value)) :
    Answers Known Q (first >>= second) := by
  intro stream answer next ended known read
  obtain ⟨value, middle, readFirst, readSecond⟩ := bind_eq_ok_iff.mp read
  obtain ⟨count, rfl⟩ := forward.of_ok ended readFirst
  have holds := answers stream value _ ended known readFirst
  exact later value holds _ answer next (ended.skip count)
    (fun token member => known token (List.mem_of_mem_drop member)) readSecond

/-- Rules in turn, if nothing is asked of the first. -/
theorem bind_right {first : Rule α} {second : α → Rule β} (forward : Forward first)
    (later : ∀ value, Answers Known Q (second value)) : Answers Known Q (first >>= second) :=
  bind (P := fun _ => True) (fun _ _ _ _ _ _ => trivial) forward fun value _ => later value

/-- An answer made of what was read. -/
theorem map {rule : Rule α} (answers : Answers Known P rule) (forward : Forward rule) {f : α → β}
    (follows : ∀ value, P value → Q (f value)) :
    Answers Known Q (rule >>= fun value => Pure.pure (f value)) :=
  answers.bind forward fun value holds => .pure (follows value holds)

theorem ite {condition : Prop} [Decidable condition] {first second : Rule α}
    (yes : Answers Known P first) (no : Answers Known P second) :
    Answers Known P (if condition then first else second) := by
  split
  · exact yes
  · exact no

/-- Every item of a loop is answered by a round. -/
theorem many {round : Rule (Option α)} (forward : Forward round)
    (shrinks : ShrinksWithin Stream.Ended round)
    (answers : Answers Known (fun found => ∀ item ∈ found, P item) round) :
    Answers Known (fun items => ∀ item ∈ items, P item) (many round) := by
  intro stream items next ended known read item member
  obtain ⟨last, run, -⟩ := (many_eq_ok_iff shrinks ended).mp read
  obtain ⟨state, behind, ⟨stateEnded, stateKnown⟩, answered⟩ :=
    exists_round_of_mem run (fun state => state.Ended ∧ ∀ token ∈ state.ahead, Known token)
      (by
        rintro state item behind ⟨stateEnded, stateKnown⟩ answered
        obtain ⟨count, rfl⟩ := forward.of_ok stateEnded answered
        exact ⟨stateEnded.skip count,
          fun token member => stateKnown token (List.mem_of_mem_drop member)⟩)
      ⟨ended, known⟩ member
  exact answers state _ behind stateEnded stateKnown answered item rfl

/-- A token that has to be a name is one of the tokens ahead. -/
theorem expectName : Answers Known (fun token => Known token ∧ token.isName = true) expectName := by
  intro stream value next ended known read
  rw [expectName_apply] at read
  split at read
  · next isName =>
    cases read
    refine ⟨known _ ?_, isName⟩
    obtain ⟨token, rest, ahead⟩ := List.exists_cons_of_ne_nil
      (Stream.ahead_ne_nil ended fun atEnd => by simp [Token.isName, atEnd] at isName)
    rw [Stream.current_of_cons ahead, ahead]
    exact List.mem_cons_self
  · cases read

end Answers

/-- What holds of every type that is read holds of the types of bodies. -/
theorem answers_bodyIf {P : TypeExpr → Prop} (inner : Answers Known P typeExpr)
    {found : Rule Bool} (forward : Forward found) :
    Answers Known (fun body => ∀ type ∈ body, P type) (bodyIf found) := by
  have none : Answers Known (fun body : Option TypeExpr => ∀ type ∈ body, P type)
      (Pure.pure none) := .pure nofun
  refine .bind_right forward fun _ => .ite ?_ none
  refine .bind_right (consumes_expect (by decide)).forward fun _ =>
    .bind_right (forward_accepts _) fun _ => .ite none ?_
  refine inner.bind consumes_typeExpr.forward fun type holds =>
    .bind_right (consumes_expect (by decide)).forward fun _ => .pure ?_
  intro body same
  cases same
  exact holds

end Rule

end ApiDescription
