import ApiDescription.Proofs.Grammar.Simulation
import ApiDescription.Proofs.Grammar.TypeTokens

/-!
# Rules that mirror each other

A rule `Mirrors` another one if it succeeds wherever the other one does on streams that are related
before them: it gives an answer that is the same in some sense, and the streams are related again
behind them. Nothing is promised where the first rule fails. Streams are `InStep` if inside lines
they go on from alike tokens to alike tokens, which is what most rules ask of them.
-/

namespace ApiDescription

/-- What one rule reads in the first of two streams, another one reads in the second, from one
relation of the streams to another. -/
def Mirrors {α β : Type} (before after : Stream → Stream → Prop) (same : α → β → Prop)
    (rule : Rule α) (other : Rule β) : Prop :=
  ∀ first second value next, before first second → rule first = .ok value next →
    ∃ answer left, other second = .ok answer left ∧ same value answer ∧ after next left

/-- A round of a loop mirrors another one. The streams are related alike before every round and
otherwise behind the last one. -/
def MirrorsRound {α β : Type} (before after : Stream → Stream → Prop) (same : α → β → Prop)
    (round : Rule (Option α)) (other : Rule (Option β)) : Prop :=
  ∀ first second value next, before first second → round first = .ok value next →
    ∃ answer left, other second = .ok answer left ∧ Option.Rel same value answer ∧
      if value.isSome then before next left else after next left

/-- Related streams stand in front of tokens that are alike, and inside a line are related behind
them; or both stand where no line goes on, and the second one not at its end. -/
structure InStep (Alike : Token → Token → Prop) (related : Stream → Stream → Prop) : Prop where
  kind : ∀ {token found}, Alike token found → found.kind = token.kind
  step : ∀ {first second}, related first second →
    (Alike first.current second.current ∧
      (first.current.kind.isBreak = false → related first.next second.next)) ∨
    (first.current.kind.isBreak = true ∧ second.current.kind.isBreak = true ∧
      second.current.kind ≠ .endOfText)

/-- Streams in step are in front of the same kind of token inside a line. -/
theorem InStep.kind_iff {Alike : Token → Token → Prop} {related : Stream → Stream → Prop}
    (inStep : InStep Alike related) {first second : Stream} (stand : related first second)
    {kind : Kind} (inLine : kind.isBreak = false) :
    second.current.kind = kind ↔ first.current.kind = kind := by
  rcases inStep.step stand with ⟨alike, -⟩ | ⟨isBreak, otherBreak, -⟩
  · rw [inStep.kind alike]
  · refine iff_of_false ?_ ?_
    · rintro rfl
      simp [inLine] at otherBreak
    · rintro rfl
      simp [inLine] at isBreak

/-- Of streams in step the second one is at its end only if the first one is. -/
theorem InStep.atEnd {Alike : Token → Token → Prop} {related : Stream → Stream → Prop}
    (inStep : InStep Alike related) {first second : Stream} (stand : related first second)
    (atEnd : second.current.kind = .endOfText) : first.current.kind = .endOfText := by
  rcases inStep.step stand with ⟨alike, -⟩ | ⟨-, -, goesOn⟩
  · rwa [← inStep.kind alike]
  · exact absurd atEnd goesOn

namespace Mirrors

variable {α β γ δ : Type} {before middle after : Stream → Stream → Prop} {same : α → β → Prop}
  {seen : γ → δ → Prop}

theorem pure {value : α} {answer : β} (holds : same value answer) :
    Mirrors before before same (pure value) (pure answer) := by
  intro first second found next related read
  cases read
  exact ⟨answer, second, rfl, holds, related⟩

/-- A rule that fails promises nothing. -/
theorem fail (cause : Token → SyntaxError.Cause) (other : Rule β) :
    Mirrors before after same (Rule.fail cause) other :=
  fun _ _ _ _ _ read => nomatch read

/-- Rules in turn. -/
theorem bind {rule : Rule α} {other : Rule β} {later : α → Rule γ} {otherLater : β → Rule δ}
    (earlier : Mirrors before middle same rule other)
    (behind : ∀ value answer, same value answer →
      Mirrors middle after seen (later value) (otherLater answer)) :
    Mirrors before after seen (rule >>= later) (other >>= otherLater) := by
  intro first second value next related read
  obtain ⟨found, between, readRule, readLater⟩ := bind_eq_ok_iff.mp read
  obtain ⟨answer, left, readOther, holds, nextRelated⟩ := earlier _ _ _ _ related readRule
  rw [bind_apply, readOther]
  exact behind found answer holds _ _ _ _ nextRelated readLater

/-- More may be known of the streams in front of a rule. -/
theorem strengthen {rule : Rule α} {other : Rule β} {stronger : Stream → Stream → Prop}
    (mirrors : Mirrors before after same rule other)
    (implies : ∀ first second, stronger first second → before first second) :
    Mirrors stronger after same rule other :=
  fun first second value next related read =>
    mirrors first second value next (implies _ _ related) read

/-- Less may be promised of the streams behind a rule. -/
theorem weaken {rule : Rule α} {other : Rule β} {behind : Stream → Stream → Prop}
    (mirrors : Mirrors before after same rule other)
    (weaker : ∀ first second, after first second → behind first second) :
    Mirrors before behind same rule other := by
  intro first second value next related read
  obtain ⟨answer, left, readOther, holds, nextRelated⟩ := mirrors _ _ _ _ related read
  exact ⟨answer, left, readOther, holds, weaker _ _ nextRelated⟩

/-- Less may be said of the answers of a rule. -/
theorem coarsen {rule : Rule α} {other : Rule β} {coarse : α → β → Prop}
    (mirrors : Mirrors before after same rule other)
    (implies : ∀ value answer, same value answer → coarse value answer) :
    Mirrors before after coarse rule other := by
  intro first second value next related read
  obtain ⟨answer, left, readOther, holds, nextRelated⟩ := mirrors _ _ _ _ related read
  exact ⟨answer, left, readOther, implies _ _ holds, nextRelated⟩

/-- A round that ends where it begins. -/
theorem round {round : Rule (Option α)} {other : Rule (Option β)}
    (mirrors : Mirrors before before (Option.Rel same) round other) :
    MirrorsRound before before same round other := by
  simp only [MirrorsRound, ite_self]
  exact mirrors

/-- Loops whose rounds mirror each other do. -/
theorem many {round : Rule (Option α)} {other : Rule (Option β)}
    (ended : ∀ {first second}, before first second → first.Ended ∧ second.Ended)
    (shrinks : ShrinksWithin Stream.Ended round) (otherShrinks : ShrinksWithin Stream.Ended other)
    (mirrors : MirrorsRound before after same round other) :
    Mirrors before after (List.Forall₂ same) (many round) (many other) := by
  intro first second values next related read
  obtain ⟨last, run, stops⟩ := (many_eq_ok_iff shrinks (ended related).1).mp read
  have parallel : ∃ answers otherLast left, Rounds other second answers otherLast ∧
      other otherLast = .ok none left ∧ List.Forall₂ same values answers ∧ after next left := by
    clear read
    induction run generalizing second with
    | none state =>
      obtain ⟨answer, left, readOther, holds, nextRelated⟩ := mirrors _ _ _ _ related stops
      cases holds
      exact ⟨[], second, left, .none second, readOther, .nil, nextRelated⟩
    | more readItem _ inductionHypothesis =>
      obtain ⟨answer, left, readOther, holds, nextRelated⟩ := mirrors _ _ _ _ related readItem
      cases holds with
      | some sameItem =>
        obtain ⟨answers, otherLast, left, otherRun, otherStops, sameItems, atEnd⟩ :=
          inductionHypothesis _ nextRelated stops
        exact ⟨_, otherLast, left, .more readOther otherRun, otherStops,
          .cons sameItem sameItems, atEnd⟩
  obtain ⟨answers, otherLast, left, otherRun, otherStops, sameItems, atEnd⟩ := parallel
  exact ⟨answers, left,
    (many_eq_ok_iff otherShrinks (ended related).2).mpr ⟨otherLast, otherRun, otherStops⟩,
    sameItems, atEnd⟩

section Steps

variable {Alike : Token → Token → Prop} {together apart : Stream → Stream → Prop}

/-- A question about kinds that stand inside lines. -/
theorem seesAny (inStep : InStep Alike together) {kinds : List Kind}
    (inLine : ∀ kind ∈ kinds, kind.isBreak = false) :
    Mirrors together together Eq (Rule.seesAny kinds) (Rule.seesAny kinds) := by
  intro first second found next related read
  cases read
  refine ⟨_, second, Rule.seesAny_apply kinds second, ?_, related⟩
  rw [Bool.eq_iff_iff, List.contains_iff_mem, List.contains_iff_mem]
  constructor
  · exact fun member => (inStep.kind_iff related (inLine _ member)).mpr rfl ▸ member
  · exact fun member => (inStep.kind_iff related (inLine _ member)).mp rfl ▸ member

/-- What is told by the next token, if no token between lines tells anything. -/
theorem branch (inStep : InStep Alike together) {behind : Token → Option (Rule α)}
    {behind' : Token → Option (Rule β)} {otherwise : Rule α} {otherwise' : Rule β}
    (inLine : ∀ token, token.kind.isBreak = true → behind token = none)
    (inLine' : ∀ token, token.kind.isBreak = true → behind' token = none)
    (alike : ∀ token found, Alike token found →
      Option.Rel (Mirrors together after same) (behind token) (behind' found))
    (without : Mirrors together after same otherwise otherwise') :
    Mirrors together after same (Rule.branch behind otherwise)
      (Rule.branch behind' otherwise') := by
  intro first second value next related read
  unfold Rule.branch at read ⊢
  rcases inStep.step related with ⟨isAlike, goesOn⟩ | ⟨isBreak, otherBreak, -⟩
  · have told := alike _ _ isAlike
    cases found : behind first.current with
    | none =>
      rw [found] at read told
      generalize behind' second.current = other at told ⊢
      cases told with
      | none => exact without _ _ _ _ related read
    | some rule =>
      have noBreak : first.current.kind.isBreak = false := by
        by_contra isBreak
        rw [inLine _ (by simpa using isBreak)] at found
        cases found
      rw [found] at read told
      generalize behind' second.current = other at told ⊢
      cases told with
      | some mirrors => exact mirrors _ _ _ _ (goesOn noBreak) read
  · rw [inLine _ isBreak] at read
    rw [inLine' _ otherBreak]
    exact without _ _ _ _ related read

/-- The lines may go on differently, but a depth that is enough for both reads the same type. -/
theorem typeExpr (ended : ∀ {first second}, together first second → first.Ended ∧ second.Ended)
    (nested : ∀ depth, Mirrors together together Eq (Rule.typeWithin depth)
      (Rule.typeWithin depth)) : Mirrors together together Eq Rule.typeExpr Rule.typeExpr := by
  intro first second value next related read
  obtain ⟨ended, otherEnded⟩ := ended related
  have enough := Nat.le_max_left (Rule.lineLength first) (Rule.lineLength second)
  have otherEnough := Nat.le_max_right (Rule.lineLength first) (Rule.lineLength second)
  rw [← Rule.typeWithin_eq_typeExpr ended enough] at read
  rw [← Rule.typeWithin_eq_typeExpr otherEnded otherEnough]
  exact nested _ _ _ _ _ related read

/-- The items of a loop between brackets may end with their lines, because what leads up to an
item skips the line feeds and comments in front of it. -/
theorem untilClosed (inStep : InStep Alike together) {lead lead' : Rule γ} {closing : Kind}
    {fault fault' : SyntaxError.Cause} {item : γ → Rule α} {item' : γ → Rule β}
    {led : γ → γ → Prop} (inLine : closing.isBreak = false)
    (leads : Mirrors apart together led lead lead')
    (items : ∀ value answer, led value answer →
      Mirrors together apart same (item value) (item' answer)) :
    MirrorsRound apart together same (Rule.untilClosed lead closing fault item)
      (Rule.untilClosed lead' closing fault' item') := by
  intro first second value next related read
  cases readLead : lead first with
  | error failure between =>
    rw [Rule.untilClosed_error readLead] at read
    cases read
  | ok found between =>
    obtain ⟨answer, left, readOther, sameLed, stand⟩ := leads _ _ _ _ related readLead
    have closes_iff := inStep.kind_iff stand inLine
    rw [Rule.untilClosed_apply readLead] at read
    rw [Rule.untilClosed_apply readOther]
    split at read
    · next closed =>
      cases read
      rw [if_pos (closes_iff.mpr closed)]
      rcases inStep.step stand with ⟨-, goesOn⟩ | ⟨isBreak, -⟩
      · exact ⟨none, _, rfl, .none, goesOn (closed ▸ inLine)⟩
      · simp [closed, inLine] at isBreak
    next opened =>
    split at read
    · cases read
    next goesOn =>
    rw [if_neg (mt closes_iff.mp opened), if_neg (mt (inStep.atEnd stand) goesOn)]
    obtain ⟨found, behind, readItem, answered⟩ := bind_eq_ok_iff.mp read
    cases answered
    obtain ⟨otherFound, otherBehind, readOtherItem, sameItem, behindApart⟩ :=
      items _ _ sameLed _ _ _ _ stand readItem
    refine ⟨some otherFound, otherBehind, ?_, .some sameItem, behindApart⟩
    rw [bind_apply, readOtherItem]
    rfl

/-- A block between brackets, inside of which the streams may be apart. -/
theorem many_untilClosed (inStep : InStep Alike together)
    (ended : ∀ {first second}, apart first second → first.Ended ∧ second.Ended)
    (parts : ∀ first second, together first second → apart first second) {lead lead' : Rule γ}
    {closing : Kind} {fault fault' : SyntaxError.Cause} {item : γ → Rule α} {item' : γ → Rule β}
    {led : γ → γ → Prop} (inLine : closing.isBreak = false) (forward : Rule.Forward lead)
    (forward' : Rule.Forward lead') (consumes : ∀ value, Rule.Consumes (item value))
    (consumes' : ∀ value, Rule.Consumes (item' value))
    (leads : Mirrors apart together led lead lead')
    (items : ∀ value answer, led value answer →
      Mirrors together apart same (item value) (item' answer)) :
    Mirrors together together (List.Forall₂ same)
      (ApiDescription.many (Rule.untilClosed lead closing fault item))
      (ApiDescription.many (Rule.untilClosed lead' closing fault' item')) :=
  (many ended (Rule.shrinks_untilClosed forward consumes)
    (Rule.shrinks_untilClosed forward' consumes')
    (untilClosed inStep inLine leads items)).strengthen parts

end Steps

end Mirrors

end ApiDescription
