import ApiDescription.Grammar.Line
import ApiDescription.Proofs.Rounds

/-!
# Reading at a place of any list of tokens

A list of tokens need not end with the end of a text. At a place behind all tokens the last one is
read again, and only the end of a text is never passed; an empty list has nothing to read. A loop
over line feeds and comments therefore need not end. It does exactly where a token that is neither
stands at the place or behind it, or at the end of the list.
-/

namespace ApiDescription

/-- A place in a list of tokens. -/
structure TokenPlace where
  tokens : List Token
  position : Nat

/-- The run of line feeds and comments at a position of a list of tokens, which is as long as it can
be. -/
def spacingAt (tokens : List Token) (position : Nat) : List Token :=
  (tokens.drop position).takeWhile Token.isSpacing

namespace TokenPlace

/-- Why nothing can be read: the list is empty. -/
inductive Fault where
  | noTokens

/-- The token at a place, or the last one behind all of them. -/
def current : EStateM Fault TokenPlace Token := fun place =>
  match place.tokens[place.position]?.or place.tokens.getLast? with
  | some token => .ok token place
  | none => .error .noTokens place

/-- Consumes the current token. The end of a text is never consumed. -/
def advance : EStateM Fault TokenPlace Token := do
  let token ← current
  if token.kind ≠ .endOfText then
    modify fun place => { place with position := place.position + 1 }
  return token

/-- Consumes a line feed or a comment, if one comes next. -/
def spacingRound : EStateM Fault TokenPlace (Option Token) := do
  if (← current).isSpacing then some <$> advance else return none

/-- Docs are collected from one place up to another one: rounds pass the line feeds and comments
between them, and one more finds neither. -/
def Collects (first : TokenPlace) (docs : List Text) (last : TokenPlace) : Prop :=
  ∃ run, Rounds spacingRound first run last ∧ spacingRound last = .ok none last ∧
    docs = docsOfRun run [] 0

/-- Whether reading on from a place meets a token that is no spacing: one that stands there or
behind, or the last one, which is read again and again. -/
def Stops (place : TokenPlace) : Prop :=
  ∃ token ∈ place.tokens.drop place.position ++ place.tokens.getLast?.toList,
    token.isSpacing = false

variable {tokens run : List Token} {position : Nat} {token : Token} {last : TokenPlace}

/-- Reading on stops in every list that ends with the end of a text. -/
theorem stops_of_ends (isLast : token ∈ tokens.getLast?) (ends : token.kind = .endOfText) :
    Stops ⟨tokens, position⟩ := by
  refine ⟨token, List.mem_append_right _ (Option.mem_toList.mpr isLast), ?_⟩
  simp [Token.isSpacing, ends]

/-- A round reads the token at the place, or the last one. -/
theorem spacingRound_of_current
    (here : tokens[position]?.or tokens.getLast? = some token) :
    spacingRound ⟨tokens, position⟩ =
      if token.isSpacing then .ok (some token) ⟨tokens, position + 1⟩
      else .ok none ⟨tokens, position⟩ := by
  have read : current ⟨tokens, position⟩ = .ok token ⟨tokens, position⟩ := by
    rw [current, here]
  rw [spacingRound, bind_apply, read]
  by_cases isSpacing : token.isSpacing = true
  · have goesOn : token.kind ≠ .endOfText := by
      rintro ends
      simp [Token.isSpacing, ends] at isSpacing
    simp only [isSpacing, ↓reduceIte, map_eq_pure_bind, advance, bind_apply, read, if_pos goesOn]
    rfl
  · simp only [isSpacing]
    rfl

/-- At a position there is a token, which begins what stands there, or nothing stands there. -/
theorem exists_token_or_nil (tokens : List Token) (position : Nat) :
    (∃ token, tokens[position]? = some token ∧
      tokens.drop position = token :: tokens.drop (position + 1)) ∨
    tokens[position]? = none ∧ tokens.drop position = [] := by
  by_cases inside : position < tokens.length
  · exact .inl ⟨_, List.getElem?_eq_getElem inside, List.drop_eq_getElem_cons inside⟩
  · have outside : tokens.length ≤ position := Nat.le_of_not_lt inside
    exact .inr ⟨List.getElem?_eq_none outside, List.drop_eq_nil_of_le outside⟩

/-- Where a round finds no spacing, reading stops at once. -/
theorem stops_of_spacingRound (ended : spacingRound ⟨tokens, position⟩ = .ok none last) :
    Stops ⟨tokens, position⟩ ∧ spacingAt tokens position = [] := by
  have noSpacing {token : Token} (here : tokens[position]?.or tokens.getLast? = some token) :
      token.isSpacing = false := by
    rw [spacingRound_of_current here] at ended
    cases isSpacing : token.isSpacing with
    | false => rfl
    | true =>
      rw [if_pos isSpacing] at ended
      cases ended
  rcases exists_token_or_nil tokens position with ⟨token, here, split⟩ | ⟨nothing, split⟩
  · have noSpacing := noSpacing (by rw [here, Option.some_or])
    refine ⟨⟨token, by simp [split], noSpacing⟩, ?_⟩
    rw [spacingAt, split, List.takeWhile_cons_of_neg (by simp [noSpacing])]
  · refine ⟨?_, by rw [spacingAt, split, List.takeWhile_nil]⟩
    cases isLast : tokens.getLast? with
    | none =>
      have fails : spacingRound ⟨tokens, position⟩ = .error .noTokens ⟨tokens, position⟩ := by
        rw [spacingRound, bind_apply, current, nothing, isLast, Option.none_or]
      rw [fails] at ended
      cases ended
    | some token =>
      have noSpacing := noSpacing (by rw [nothing, isLast, Option.none_or])
      exact ⟨token, by simp [isLast], noSpacing⟩

/-- A round that finds spacing moves on by one token, which stands there if reading on stops. -/
theorem spacingAt_of_spacingRound {next : TokenPlace}
    (read : spacingRound ⟨tokens, position⟩ = .ok (some token) next) :
    next = ⟨tokens, position + 1⟩ ∧ (Stops ⟨tokens, position + 1⟩ → Stops ⟨tokens, position⟩ ∧
      spacingAt tokens position = token :: spacingAt tokens (position + 1)) := by
  obtain ⟨found, here⟩ : ∃ found, tokens[position]?.or tokens.getLast? = some found := by
    rw [← Option.ne_none_iff_exists']
    intro nothing
    rw [spacingRound, bind_apply, current, nothing] at read
    cases read
  rw [spacingRound_of_current here] at read
  split at read
  · next isSpacing =>
    cases read
    refine ⟨rfl, fun stops => ?_⟩
    rcases exists_token_or_nil tokens position with ⟨first, isFirst, split⟩ | ⟨nothing, split⟩
    · rw [isFirst, Option.some_or] at here
      cases here
      obtain ⟨token, member, noSpacing⟩ := stops
      refine ⟨⟨token, ?_, noSpacing⟩, ?_⟩
      · dsimp only at member ⊢
        rw [split]
        exact List.mem_cons_of_mem _ member
      · rw [spacingAt, split, List.takeWhile_cons_of_pos isSpacing, spacingAt]
    · -- The last token is read again and again.
      obtain ⟨token, member, noSpacing⟩ := stops
      rw [nothing, Option.none_or] at here
      rw [← List.drop_drop, split, here] at member
      simp only [List.drop_nil, List.nil_append, Option.toList_some, List.mem_singleton] at member
      rw [member, isSpacing] at noSpacing
      cases noSpacing
  · cases read

/-- Rounds that end pass the spacing at their place, and there reading on stops. -/
theorem spacingAt_of_rounds (rounds : Rounds spacingRound ⟨tokens, position⟩ run last)
    (ended : spacingRound last = .ok none last) :
    Stops ⟨tokens, position⟩ ∧ run = spacingAt tokens position ∧
      last = ⟨tokens, position + run.length⟩ := by
  generalize start : TokenPlace.mk tokens position = place at rounds
  induction rounds generalizing position with
  | none place =>
    subst start
    obtain ⟨stops, nothing⟩ := stops_of_spacingRound ended
    exact ⟨stops, nothing.symm, rfl⟩
  | more read later inductionHypothesis =>
    subst start
    obtain ⟨rfl, behind⟩ := spacingAt_of_spacingRound read
    obtain ⟨stops, rfl, rfl⟩ := inductionHypothesis ended rfl
    obtain ⟨stops, run⟩ := behind stops
    refine ⟨stops, run.symm, ?_⟩
    rw [List.length_cons, Nat.add_assoc, Nat.add_comm 1]

/-- Where reading on stops and no spacing stands, a round finds none. -/
theorem spacingRound_of_stops (stops : Stops ⟨tokens, position⟩)
    (nothing : spacingAt tokens position = []) :
    spacingRound ⟨tokens, position⟩ = .ok none ⟨tokens, position⟩ := by
  obtain ⟨token, here, noSpacing⟩ : ∃ token,
      tokens[position]?.or tokens.getLast? = some token ∧ token.isSpacing = false := by
    rcases exists_token_or_nil tokens position with ⟨token, here, split⟩ | ⟨absent, split⟩
    · refine ⟨token, by rw [here, Option.some_or], ?_⟩
      cases isSpacing : token.isSpacing with
      | false => rfl
      | true =>
        rw [spacingAt, split, List.takeWhile_cons_of_pos isSpacing] at nothing
        cases nothing
    · obtain ⟨token, member, noSpacing⟩ := stops
      rw [split, List.nil_append, Option.mem_toList] at member
      exact ⟨token, by rw [absent, Option.none_or, member], noSpacing⟩
  rw [spacingRound_of_current here, noSpacing]
  rfl

/-- Where reading on stops, it stops behind a token that is spacing, too. -/
theorem Stops.behind (stops : Stops ⟨tokens, position⟩)
    (split : tokens.drop position = token :: tokens.drop (position + 1))
    (isSpacing : token.isSpacing = true) : Stops ⟨tokens, position + 1⟩ := by
  obtain ⟨other, member, noSpacing⟩ := stops
  rw [split, List.cons_append] at member
  refine ⟨other, (List.mem_cons.mp member).resolve_left ?_, noSpacing⟩
  rintro rfl
  simp [isSpacing] at noSpacing

/-- Where reading on stops, rounds pass the spacing and end. -/
theorem rounds_spacingAt (stops : Stops ⟨tokens, position⟩) :
    Rounds spacingRound ⟨tokens, position⟩ (spacingAt tokens position)
      ⟨tokens, position + (spacingAt tokens position).length⟩ ∧
    spacingRound ⟨tokens, position + (spacingAt tokens position).length⟩ =
      .ok none ⟨tokens, position + (spacingAt tokens position).length⟩ := by
  induction found : spacingAt tokens position generalizing position with
  | nil => exact ⟨.none _, spacingRound_of_stops stops found⟩
  | cons token run inductionHypothesis =>
    obtain ⟨first, here, split⟩ := (exists_token_or_nil tokens position).resolve_right fun none => by
      rw [spacingAt, none.2] at found
      cases found
    cases isSpacing : first.isSpacing with
    | false =>
      rw [spacingAt, split, List.takeWhile_cons_of_neg (by simp [isSpacing])] at found
      cases found
    | true =>
      rw [spacingAt, split, List.takeWhile_cons_of_pos isSpacing] at found
      obtain ⟨rfl, rest⟩ := List.cons.inj found
      obtain ⟨rounds, ended⟩ := inductionHypothesis (stops.behind split isSpacing) rest
      have read : spacingRound ⟨tokens, position⟩ = .ok (some first) ⟨tokens, position + 1⟩ := by
        rw [spacingRound_of_current (by rw [here, Option.some_or]), if_pos isSpacing]
      rw [List.length_cons, Nat.add_comm run.length, ← Nat.add_assoc]
      exact ⟨.more read rounds, ended⟩

/-- Docs are collected at a place exactly if reading on stops, and then they are those of the run of
spacing there, which is passed. -/
theorem collects_iff {docs : List Text} :
    Collects ⟨tokens, position⟩ docs last ↔ Stops ⟨tokens, position⟩ ∧
      docs = docsOfRun (spacingAt tokens position) [] 0 ∧
      last = ⟨tokens, position + (spacingAt tokens position).length⟩ := by
  constructor
  · rintro ⟨run, rounds, ended, rfl⟩
    obtain ⟨stops, rfl, rfl⟩ := spacingAt_of_rounds rounds ended
    exact ⟨stops, rfl, rfl⟩
  · rintro ⟨stops, rfl, rfl⟩
    obtain ⟨rounds, ended⟩ := rounds_spacingAt stops
    exact ⟨_, rounds, ended, rfl⟩

end TokenPlace

end ApiDescription
