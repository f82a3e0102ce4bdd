import ApiDescription.Proofs.Token.Scanning

/-!
# Reading from another place

A scanner has no memory but the character it read last, and of that it only asks whether it was a
colon, and only in front of two slashes. Two cursors in front of the same characters therefore
read the same tokens, and what is known of the places of the one holds for the places of the other.
-/

namespace ApiDescription

/-- How places of a text are found again in another one: some characters and lines further on, and
in a column that follows from the line and the column. -/
structure Movement where
  characters : Nat
  lines : Nat
  column : Nat → Nat → Nat

namespace Movement

variable (movement : Movement)

/-- Where a place is found again. -/
def location (place : Location) : Location :=
  ⟨place.offset + movement.characters, place.line + movement.lines,
    movement.column place.line place.column⟩

/-- A token as it is found again. -/
def token (token : Token) : Token :=
  { token with
    start := movement.location token.start
    stop := token.stop + movement.characters }

/-- A fault as it is found again. -/
def fault (fault : SyntaxError) : SyntaxError :=
  { fault with
    line := fault.line + movement.lines
    column := movement.column fault.line fault.column }

end Movement

namespace Cursor

/-- Two cursors in front of the same characters, the second one where the first one is found again.
Where two slashes are ahead, either both cursors are behind a colon or neither is. -/
structure Moved (movement : Movement) (cursor other : Cursor) : Prop where
  rest : other.rest = cursor.rest
  scheme : ['/', '/'] <+: cursor.rest → (other.last? = some ':' ↔ cursor.last? = some ':')
  location : ∀ passed, passed <+: cursor.rest →
    other.location.after passed = movement.location (cursor.location.after passed)

namespace Moved

variable {movement : Movement} {cursor other : Cursor}

/-- The second cursor stands where the first one is found again. -/
theorem location_eq (moved : Moved movement cursor other) :
    other.location = movement.location cursor.location :=
  moved.location [] List.nil_prefix

/-- Cursors move in parallel. -/
theorem skip (moved : Moved movement cursor other) (count : Nat) :
    Moved movement (cursor.skip count) (other.skip count) := by
  obtain ⟨rest, scheme, location⟩ := moved
  refine ⟨by simp only [Cursor.skip, rest], ?_, ?_⟩
  · simp only [Cursor.skip, last?, rest, List.head?_append, List.head?_reverse]
    cases passed : (cursor.rest.take count).getLast? with
    | some last => exact fun _ => Iff.rfl
    | none =>
      have stays : cursor.rest.drop count = cursor.rest := by
        rw [List.getLast?_eq_none_iff] at passed
        simpa [passed] using List.take_append_drop count cursor.rest
      rw [stays]
      exact scheme
  · intro passed ahead
    simp only [Cursor.skip, rest, ← Location.after_append] at ahead ⊢
    have whole := (List.prefix_append_right_inj (cursor.rest.take count)).mpr ahead
    rw [List.take_append_drop] at whole
    exact location _ whole

end Moved

end Cursor

namespace Lexeme

/-- Of the character before a lexeme it only matters whether it is a colon, and only if the lexeme
begins with two slashes. -/
theorem read_congr {last? other? : Option Char} {c : Char} {following : List Char}
    (scheme : ['/', '/'] <+: c :: following → (other? = some ':' ↔ last? = some ':')) :
    read other? c following = read last? c following := by
  have opens : (c = '/' ∧ following.head? = some '/' ∧ other? ≠ some ':') =
      (c = '/' ∧ following.head? = some '/' ∧ last? ≠ some ':') := by
    refine propext (and_congr_right fun first => and_congr_right fun second => ?_)
    obtain ⟨rest, rfl⟩ := List.head?_eq_some_iff.mp second
    exact not_congr (scheme ⟨rest, by rw [first]; rfl⟩)
  simp only [read, opens]

end Lexeme

namespace Scan

variable {movement : Movement} {cursor other : Cursor}

/-- Moved cursors read the same token, moved, or come to the same fault. -/
theorem token?_moved (moved : cursor.Moved movement other) :
    match token? cursor with
    | .ok found next => ∃ otherNext, next.Moved movement otherNext ∧
        token? other = .ok (found.map movement.token) otherNext
    | .error fault next => ∃ otherNext, next.Moved movement otherNext ∧
        token? other = .error (movement.fault fault) otherNext := by
  have start := moved.skip (Lexeme.countWhile Lexeme.isGap cursor.rest)
  rw [token?_apply cursor, token?_apply other, moved.rest]
  dsimp only
  generalize cursor.skip (Lexeme.countWhile Lexeme.isGap cursor.rest) = before at start
  generalize other.skip (Lexeme.countWhile Lexeme.isGap cursor.rest) = otherBefore at start
  have scheme := start.scheme
  rw [start.rest]
  match ahead : before.rest with
  | [] => exact ⟨_, start, rfl⟩
  | c :: following =>
    rw [ahead] at scheme
    simp only [Lexeme.read_congr scheme]
    match Lexeme.read before.last? c following with
    | .error (cause, count) =>
      refine ⟨_, start.skip count, ?_⟩
      simp only [start.location_eq]
      rfl
    | .ok (kind, value, count) =>
      have finish := start.skip count
      refine ⟨_, finish, ?_⟩
      simp only [start.location_eq, finish.location_eq]
      rfl

/-- Moved cursors read in parallel to the end or to a fault. -/
theorem rounds_moved {last : Cursor} {tokens : List Token} (moved : cursor.Moved movement other)
    (run : Rounds token? cursor tokens last) :
    ∃ otherLast, last.Moved movement otherLast ∧
      Rounds token? other (tokens.map movement.token) otherLast := by
  induction run generalizing other with
  | none cursor => exact ⟨other, moved, .none other⟩
  | more read _ inductionHypothesis =>
    have step := token?_moved moved
    rw [read] at step
    obtain ⟨otherNext, nextMoved, otherRead⟩ := step
    obtain ⟨otherLast, lastMoved, later⟩ := inductionHypothesis nextMoved
    exact ⟨otherLast, lastMoved, .more otherRead later⟩

end Scan

/-- Where a scanner has come to the place another one has come to, the rest of the tokens are the
same, moved, and so is the fault if there is one. -/
theorem tokenize_of_moved {movement : Movement} {text : List Char} {tokens later : List Token}
    {reached cursor other last state : Cursor} {fault : Option SyntaxError}
    (passed : Rounds Scan.token? (Cursor.ofText text) tokens reached)
    (same : Scan.token? reached = Scan.token? cursor)
    (moved : other.Moved movement cursor) (run : Rounds Scan.token? other later last)
    (ended : Scan.token? last = roundEnd fault state) :
    tokenize text =
      match fault with
      | none => .ok (tokens ++ (later ++ [Token.finish state.location]).map movement.token)
      | some fault => .error (movement.fault fault) := by
  obtain ⟨otherLast, lastMoved, otherRun⟩ := Scan.rounds_moved moved run
  have otherEnd := Scan.token?_moved lastMoved
  rw [ended] at otherEnd
  cases fault with
  | none =>
    obtain ⟨otherState, stateMoved, otherEnd⟩ := otherEnd
    have finishMoved : Token.finish otherState.location =
        movement.token (Token.finish state.location) := by
      rw [stateMoved.location_eq]
      rfl
    obtain ⟨behind, runBehind, ends⟩ := Rounds.exists_of_round_eq same ⟨otherLast, otherRun, rfl⟩
    have whole := tokenize_of_rounds (passed.append runBehind)
      (show _ = roundEnd none otherState from ends.trans otherEnd)
    simpa [finishMoved] using whole
  | some fault =>
    obtain ⟨otherState, -, otherEnd⟩ := otherEnd
    obtain ⟨behind, runBehind, ends⟩ := Rounds.exists_of_round_eq same ⟨otherLast, otherRun, rfl⟩
    exact tokenize_of_rounds (passed.append runBehind)
      (show _ = roundEnd (some _) otherState from ends.trans otherEnd)

end ApiDescription
