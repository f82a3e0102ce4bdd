import ApiDescription.Reading

/-!
# Runs of rounds

A run is a chain of rounds in which each one reads an item and hands its state to
the next. What `collect` and `many` answer is a run and the round that ends it:
either the round that finds nothing more, or the one that fails. Statements about
loops of the grammars are proved on runs, by induction on the rounds.
-/

namespace ApiDescription

variable {ε σ α β : Type}

/-- What an action answers on a given state can be evaluated and compared. -/
instance decidableEqResult [DecidableEq ε] [DecidableEq σ] [DecidableEq α] :
    DecidableEq (EStateM.Result ε σ α)
  | .ok value state, .ok other next =>
    decidable_of_iff (value = other ∧ state = next) (EStateM.Result.ok.injEq ..).to_iff.symm
  | .error fault state, .error other next =>
    decidable_of_iff (fault = other ∧ state = next) (EStateM.Result.error.injEq ..).to_iff.symm
  | .ok .., .error .. => isFalse nofun
  | .error .., .ok .. => isFalse nofun

/-- Two actions in turn: the second starts with the answer and the state of the first, and
a fault of the first ends both. -/
theorem bind_apply (first : EStateM ε σ α) (second : α → EStateM ε σ β) (state : σ) :
    (first >>= second) state =
      match first state with
      | .ok value next => second value next
      | .error fault next => .error fault next := rfl

/-- Two actions succeed in turn if each does where the one before it ended. -/
theorem bind_eq_ok_iff {first : EStateM ε σ α} {second : α → EStateM ε σ β} {state next : σ}
    {answer : β} :
    (first >>= second) state = .ok answer next ↔
      ∃ value middle, first state = .ok value middle ∧ second value middle = .ok answer next := by
  rw [bind_apply]
  cases first state with
  | error fault middle => simp
  | ok value middle =>
    constructor
    · exact fun read => ⟨value, middle, rfl, read⟩
    · rintro ⟨_, _, same, read⟩
      cases same
      exact read

/-- An action that only answers leaves the state as it is. -/
theorem pure_apply (value : α) (state : σ) :
    (pure value : EStateM ε σ α) state = .ok value state := rfl

/-- Items read one after the other: each round starts where the one before it ended. -/
inductive Rounds (round : EStateM ε σ (Option α)) : σ → List α → σ → Prop
  | none (state : σ) : Rounds round state [] state
  | more {state next last : σ} {item : α} {items : List α}
      (read : round state = .ok (some item) next) (later : Rounds round next items last) :
      Rounds round state (item :: items) last

/-- The answer of a round that reads no item: nothing more belongs to the run, or a fault. -/
def roundEnd (fault : Option ε) (state : σ) : EStateM.Result ε σ (Option α) :=
  match fault with
  | none => .ok none state
  | some fault => .error fault state

/-- A run and the round behind it depend on the first state only through its round. -/
theorem Rounds.exists_of_round_eq {round : EStateM ε σ (Option α)} {state other : σ}
    {items : List α} {result : EStateM.Result ε σ (Option α)} (same : round other = round state)
    (ends : ∃ last, Rounds round state items last ∧ round last = result) :
    ∃ last, Rounds round other items last ∧ round last = result := by
  obtain ⟨last, run, ended⟩ := ends
  cases run with
  | none _ => exact ⟨other, .none other, same.trans ended⟩
  | more read later => exact ⟨last, .more (same.trans read) later, ended⟩

/-- Among valid states, every item a round reads leaves less to read and a valid state. -/
def ShrinksWithin [Remaining σ] (valid : σ → Prop) (round : EStateM ε σ (Option α)) : Prop :=
  ∀ state item next, valid state → round state = .ok (some item) next →
    remaining next < remaining state ∧ valid next

/-- A round that always shrinks its state needs no condition on it. -/
theorem Shrinks.within [Remaining σ] {round : EStateM ε σ (Option α)} (shrinks : Shrinks round) :
    ShrinksWithin (fun _ => True) round :=
  fun state item next _ read => ⟨shrinks state item next read, trivial⟩

namespace Rounds

variable {round : EStateM ε σ (Option α)}

/-- A single round is a run. -/
theorem single {state next : σ} {item : α} (read : round state = .ok (some item) next) :
    Rounds round state [item] next :=
  .more read (.none next)

/-- Two runs in turn are one run. -/
theorem append {first middle last : σ} {items others : List α}
    (earlier : Rounds round first items middle) (later : Rounds round middle others last) :
    Rounds round first (items ++ others) last := by
  induction earlier with
  | none _ => exact later
  | more read _ inductionHypothesis => exact .more read (inductionHypothesis later)

/-- A run is a run over the items in front and one over those behind. -/
theorem exists_of_append {first last : σ} {items others : List α}
    (run : Rounds round first (items ++ others) last) :
    ∃ middle, Rounds round first items middle ∧ Rounds round middle others last := by
  induction items generalizing first with
  | nil => exact ⟨first, .none first, run⟩
  | cons item items inductionHypothesis =>
    cases run with
    | more read later =>
      obtain ⟨middle, earlier, behind⟩ := inductionHypothesis later
      exact ⟨middle, .more read earlier, behind⟩

/-- Items that are read with less and less to read are no more than there was to read. -/
theorem length_le [Remaining σ] {valid : σ → Prop} (shrinks : ShrinksWithin valid round)
    {first last : σ} {items : List α} (run : Rounds round first items last)
    (entered : valid first) : items.length + remaining last ≤ remaining first ∧ valid last := by
  induction run with
  | none _ => exact ⟨by simp, entered⟩
  | more read _ inductionHypothesis =>
    obtain ⟨fewer, stays⟩ := shrinks _ _ _ entered read
    obtain ⟨bounded, ended⟩ := inductionHypothesis stays
    refine ⟨?_, ended⟩
    simp only [List.length_cons]
    omega

end Rounds

/-- A bound that allows for all items of a run lets the reading go on to the end of the run. -/
theorem collectWithin_of_rounds {round : EStateM ε σ (Option α)} {state last next : σ}
    {items : List α} {fault : Option ε} (run : Rounds round state items last)
    (ended : round last = roundEnd fault next) (more : Nat) (enough : items.length ≤ more) :
    collectWithin round more state = ⟨items, fault, next⟩ := by
  induction run generalizing more with
  | none state =>
    rw [collectWithin, ended]
    cases fault <;> rfl
  | more read _ inductionHypothesis =>
    obtain ⟨fewer, rfl⟩ : ∃ fewer, more = fewer + 1 :=
      Nat.exists_eq_add_one_of_ne_zero (by simp only [List.length_cons] at enough; omega)
    rw [collectWithin, read]
    simp only [inductionHypothesis ended fewer (by simpa using enough)]

section Collecting

variable [Remaining σ] {valid : σ → Prop} {round : EStateM ε σ (Option α)}
  {state last next : σ} {items : List α}

/-- A run that is not longer than what there is to read is read as a whole. -/
theorem many_of_rounds (run : Rounds round state items last) (ended : round last = .ok none next)
    (bounded : items.length ≤ remaining state) : many round state = .ok items next := by
  have read : collect round state = ⟨items, none, next⟩ :=
    collectWithin_of_rounds run (show round last = roundEnd none next from ended) _ bounded
  simp [many, read]

/-- What is read as a whole are the items of the reading. -/
theorem items_of_many (read : many round state = .ok items next) :
    (collect round state).items = items := by
  unfold many at read
  generalize collect round state = series at read
  obtain ⟨found, fault, last⟩ := series
  cases fault with
  | none => exact (EStateM.Result.ok.inj read).1
  | some fault => exact nomatch read

/-- Reading in rounds is a run, ended by the answer or the fault of a round, if the bound allows
for what there is to read. -/
theorem exists_rounds_collectWithin (shrinks : ShrinksWithin valid round) (more : Nat)
    (state : σ) (entered : valid state) (enough : remaining state ≤ more) :
    ∃ last, Rounds round state (collectWithin round more state).items last ∧
      round last =
        roundEnd (collectWithin round more state).fault (collectWithin round more state).state := by
  induction more generalizing state with
  | zero =>
    rw [collectWithin]
    rcases read : round state with ⟨_ | item, next⟩ | ⟨fault, next⟩
    · exact ⟨state, .none state, read⟩
    · have fewer := (shrinks state item next entered read).1
      omega
    · exact ⟨state, .none state, read⟩
  | succ more inductionHypothesis =>
    rw [collectWithin]
    rcases read : round state with ⟨_ | item, next⟩ | ⟨fault, next⟩
    · exact ⟨state, .none state, read⟩
    · obtain ⟨fewer, stays⟩ := shrinks state item next entered read
      obtain ⟨last, run, ended⟩ := inductionHypothesis next stays (by omega)
      exact ⟨last, .more read run, ended⟩
    · exact ⟨state, .none state, read⟩

/-- Every reading in rounds is a run, ended by the answer or the fault of a round. -/
theorem exists_rounds_collect (shrinks : ShrinksWithin valid round) (entered : valid state) :
    ∃ last, Rounds round state (collect round state).items last ∧
      round last = roundEnd (collect round state).fault (collect round state).state :=
  exists_rounds_collectWithin shrinks _ state entered (Nat.le_refl _)

/-- Reading in rounds is exactly a run and the round that ends it. -/
theorem collect_eq_iff (shrinks : ShrinksWithin valid round) (entered : valid state)
    {fault : Option ε} :
    collect round state = ⟨items, fault, next⟩ ↔
      ∃ last, Rounds round state items last ∧ round last = roundEnd fault next := by
  constructor
  · intro read
    obtain ⟨last, run, ended⟩ := exists_rounds_collect shrinks entered
    rw [read] at run ended
    exact ⟨last, run, ended⟩
  · rintro ⟨last, run, ended⟩
    have bounded := (run.length_le shrinks entered).1
    exact collectWithin_of_rounds run ended (remaining state) (by omega)

/-- What is read in rounds: a run, ended by a round that finds nothing more. -/
theorem many_eq_ok_iff (shrinks : ShrinksWithin valid round) (entered : valid state) :
    many round state = .ok items next ↔
      ∃ last, Rounds round state items last ∧ round last = .ok none next := by
  refine Iff.trans ?_
    (collect_eq_iff shrinks entered : collect round state = ⟨items, none, next⟩ ↔ _)
  unfold many
  match collect round state with
  | ⟨_, some _, _⟩ | ⟨_, none, _⟩ => simp

/-- A fault while reading in rounds: a run, ended by the round that fails. -/
theorem many_eq_error_iff (shrinks : ShrinksWithin valid round) (entered : valid state)
    {fault : ε} :
    many round state = .error fault next ↔
      ∃ items last, Rounds round state items last ∧ round last = .error fault next := by
  refine Iff.trans ?_ (exists_congr fun items =>
    (collect_eq_iff shrinks entered : collect round state = ⟨items, some fault, next⟩ ↔ _))
  unfold many
  match collect round state with
  | ⟨_, some _, _⟩ | ⟨_, none, _⟩ => simp

end Collecting

end ApiDescription
