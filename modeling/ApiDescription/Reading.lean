/-!
# Reading in rounds

The grammars of this library read from a state that shrinks: a list of tokens or
a text with a position. A construct that repeats is one *round* run until it
answers that nothing more belongs to it. `collect` runs the rounds and keeps the
items read before a fault, so that what was seen up to the fault can be reported.

A round that reads an item leaves less to read. What is left at the start
therefore bounds the number of rounds, and `collect_eq` says that this bound is
never met: reading ends by a round's own answer.

Readers of data formats read from the list of characters still to come. The elements
all of them share are at the end; none of them fails.
-/

namespace ApiDescription

/-- The amount a reading state has left to read. -/
class Remaining (σ : Type) where
  remaining : σ → Nat

export Remaining (remaining)

/-- A list is read from its front; its length is what is left. -/
instance {α : Type} : Remaining (List α) := ⟨List.length⟩

/-- The outcome of reading items in rounds: the items read, the fault that ended
the reading if there was one, and the state it ended in. -/
structure Series (ε σ α : Type) where
  items : List α
  fault : Option ε
  state : σ

variable {ε σ α : Type}

/-- Runs a round until it answers `none` or fails, or until it has read `more` items
behind the first one. -/
def collectWithin (round : EStateM ε σ (Option α)) (more : Nat) (state : σ) : Series ε σ α :=
  match round state with
  | .error fault next => ⟨[], some fault, next⟩
  | .ok none next => ⟨[], none, next⟩
  | .ok (some item) next =>
    match more with
    | 0 => ⟨[item], none, next⟩
    | more + 1 =>
      let later := collectWithin round more next
      { later with items := item :: later.items }

/-- Runs a round until it answers `none` or fails. -/
def collect [Remaining σ] (round : EStateM ε σ (Option α)) (state : σ) : Series ε σ α :=
  collectWithin round (remaining state) state

/-- Every item a round reads leaves less to read. -/
def Shrinks [Remaining σ] (round : EStateM ε σ (Option α)) : Prop :=
  ∀ state item next, round state = .ok (some item) next → remaining next < remaining state

/-- A bound that is not below what is left to read does not matter. -/
theorem collectWithin_eq [Remaining σ] {round : EStateM ε σ (Option α)}
    (shrinks : Shrinks round) (more : Nat) (state : σ) (enough : remaining state ≤ more) :
    collectWithin round more state = collect round state := by
  unfold collect
  induction hleft : remaining state using Nat.strongRecOn generalizing more state with
  | _ left inductionHypothesis =>
    subst hleft
    rw [collectWithin, collectWithin]
    match read : round state with
    | .error _ _ | .ok none _ => rfl
    | .ok (some item) next =>
      have fewer := shrinks state item next read
      obtain ⟨more, rfl⟩ := Nat.exists_eq_add_one_of_ne_zero
        (Nat.ne_of_gt (Nat.lt_of_lt_of_le (Nat.zero_lt_of_lt fewer) enough))
      obtain ⟨left, atState⟩ := Nat.exists_eq_add_one_of_ne_zero
        (Nat.ne_of_gt (Nat.zero_lt_of_lt fewer))
      simp only [atState]
      rw [inductionHypothesis (remaining next) fewer more next (by omega) rfl,
        inductionHypothesis (remaining next) fewer left next (by omega) rfl]

/-- Reading in rounds is one round and, if it reads an item, reading on behind it. -/
theorem collect_eq [Remaining σ] {round : EStateM ε σ (Option α)} (shrinks : Shrinks round)
    (state : σ) :
    collect round state =
      match round state with
      | .error fault next => ⟨[], some fault, next⟩
      | .ok none next => ⟨[], none, next⟩
      | .ok (some item) next =>
        { collect round next with items := item :: (collect round next).items } := by
  rw [← collectWithin_eq shrinks (remaining state + 1) state (Nat.le_succ _), collectWithin]
  match read : round state with
  | .error _ _ | .ok none _ => rfl
  | .ok (some item) next =>
    have fewer := shrinks state item next read
    simp only [collectWithin_eq shrinks (remaining state) next (Nat.le_of_lt fewer)]

/-- The items read in rounds, or the fault of the round that failed. -/
def many [Remaining σ] (round : EStateM ε σ (Option α)) : EStateM ε σ (List α) := fun state =>
  let series := collect round state
  match series.fault with
  | some fault => .error fault series.state
  | none => .ok series.items series.state

/-- An action that reads from a text. -/
abbrev TextReader (ε : Type) := EStateM ε (List Char)

namespace TextReader

variable {ε : Type}

/-- Skips the longest run of characters in a class. -/
def skipWhile (p : Char → Bool) : TextReader ε Unit := modify (·.dropWhile p)

/-- Reads the longest run of characters in a class. -/
def takeWhile (p : Char → Bool) : TextReader ε (List Char) := fun text =>
  .ok (text.takeWhile p) (text.dropWhile p)

/-- Consumes a character if it comes next, and says whether it did. -/
def acceptsChar (c : Char) : TextReader ε Bool := fun text =>
  match text with
  | next :: rest => if next = c then .ok true rest else .ok false text
  | [] => .ok false text

/-- Consumes a word if it comes next, and says whether it did. -/
def accepts (word : String) : TextReader ε Bool := fun text =>
  if word.toList.isPrefixOf text then .ok true (text.drop word.length) else .ok false text

end TextReader

end ApiDescription
