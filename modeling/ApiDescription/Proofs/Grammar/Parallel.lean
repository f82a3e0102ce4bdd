import ApiDescription.Proofs.Grammar.LineSimulation
import ApiDescription.Proofs.Grammar.Mirroring

/-!
# Reading two texts in parallel

Two texts may differ in what stands between their lines: line feeds and comments, which the rules
skip, and the numbers of the lines behind them. `Parallel` says what has to be known of such texts.
Streams over them are *together* in front of the same token, and *apart* where line feeds and
comments have to be passed before they are together again.

Rules mirror each other from one such place to the next. The texts come apart at the line feed that
ends a line, and are together again behind the run of line feeds and comments there. This is kept
by the ways in which rules are built, so that every rule of the grammar mirrors itself.
-/

namespace ApiDescription

/-- What rules ask of a token is the same of two tokens, but for the number of the line. -/
structure Token.Alike (line : Nat → Nat) (token other : Token) : Prop where
  kind : other.kind = token.kind
  value : other.value = token.value
  line : other.start.line = line token.start.line

namespace Token.Alike

variable {line : Nat → Nat} {token other : Token}

/-- Tokens that are alike have the same text. -/
theorem text (alike : token.Alike line other) : other.text = token.text :=
  congrArg Text.ofString alike.value

end Token.Alike

/-- Two texts whose tokens are alike, but for what is skipped between lines. -/
structure Parallel where
  source : List Char
  other : List Char
  line : Nat → Nat
  /-- What the docs in the two texts have in common. -/
  keep : List Text → List Text
  Together : Stream → Stream → Prop
  Apart : Stream → Stream → Prop
  line_injective : Function.Injective line
  ended : ∀ {first second}, Apart first second → first.Ended ∧ second.Ended
  apart : ∀ {first second}, Together first second → Apart first second
  alike : ∀ {first second}, Together first second → first.current.Alike line second.current
  next : ∀ {first second}, Together first second → first.current.kind ≠ .newline →
    Together first.next second.next
  feed : ∀ {first second}, Together first second → first.current.kind = .newline →
    Apart first.next second.next
  spacing : ∀ {first second}, Apart first second →
    let run := first.ahead.takeWhile Token.isSpacing
    let otherRun := second.ahead.takeWhile Token.isSpacing
    Together (first.skip run.length) (second.skip otherRun.length) ∧
      keep (docsOfRun otherRun [] 0) = keep (docsOfRun run [] 0)
  values : ∀ {first second}, Together first second →
    let run := first.ahead.takeWhile fun token => !token.endsValue
    let otherRun := second.ahead.takeWhile fun token => !token.endsValue
    Together (first.skip run.length) (second.skip otherRun.length) ∧
      valueOfTokens other otherRun = valueOfTokens source run

namespace Parallel

variable (parallel : Parallel) {α β γ : Type}

/-- Streams that are together are in step. -/
theorem inStep : InStep (Token.Alike parallel.line) parallel.Together where
  kind := Token.Alike.kind
  step together := .inl ⟨parallel.alike together, fun inLine =>
    parallel.next together fun isFeed => by simp [isFeed, Kind.isBreak] at inLine⟩

theorem current :
    Mirrors parallel.Together parallel.Together (Token.Alike parallel.line) Rule.current
      Rule.current := by
  intro first second found next together read
  cases read
  exact ⟨_, second, rfl, parallel.alike together, together⟩

/-- Comments stand on the same line in both texts as what they follow. -/
theorem trailingComment {line other : Nat} (same : other = parallel.line line) :
    Mirrors parallel.Together parallel.Together Eq (Rule.trailingComment line)
      (Rule.trailingComment other) := by
  subst same
  intro first second found next together read
  obtain ⟨kind, value, onLine⟩ := parallel.alike together
  rw [Rule.trailingComment_apply] at read
  rw [Rule.trailingComment_apply]
  simp only [kind, onLine, parallel.line_injective.eq_iff]
  split at read
  · next holds =>
    cases read
    rw [if_pos holds]
    exact ⟨_, _, rfl, (parallel.alike together).text.symm,
      parallel.next together (by simp [holds.1])⟩
  · next fails =>
    cases read
    rw [if_neg fails]
    exact ⟨_, _, rfl, rfl, together⟩

/-- Behind the line feed that ends a line the texts may come apart. -/
theorem lineEnd :
    Mirrors parallel.Together parallel.Apart Eq Rule.lineEnd Rule.lineEnd := by
  intro first second found next together read
  rw [Rule.lineEnd_apply] at read
  rw [Rule.lineEnd_apply, (parallel.alike together).kind]
  split at read
  · next isFeed =>
    cases read
    rw [if_pos isFeed]
    exact ⟨_, _, rfl, rfl, parallel.feed together isFeed⟩
  · next noFeed =>
    split at read
    · next closes =>
      cases read
      rw [if_neg noFeed, if_pos closes]
      exact ⟨_, _, rfl, rfl, parallel.apart together⟩
    · cases read

/-- Behind a run of line feeds and comments the texts are together again. -/
theorem skipSpacing :
    Mirrors parallel.Apart parallel.Together Eq Rule.skipSpacing Rule.skipSpacing := by
  intro first second found next apart read
  cases read
  exact ⟨_, _, rfl, rfl, (parallel.spacing apart).1⟩

theorem docs :
    Mirrors parallel.Apart parallel.Together (Seen parallel.keep) Rule.docs Rule.docs := by
  intro first second found next apart read
  cases read
  exact ⟨_, _, rfl, (parallel.spacing apart).2, (parallel.spacing apart).1⟩

theorem propertyValue :
    Mirrors parallel.Together parallel.Together Eq (Rule.propertyValue parallel.source)
      (Rule.propertyValue parallel.other) := by
  intro first second found next together read
  cases read
  exact ⟨_, _, rfl, (parallel.values together).2.symm, (parallel.values together).1⟩

/-- Streams that stand together, or apart. -/
def Stand : Standing → Stream → Stream → Prop
  | .together => parallel.Together
  | .apart => parallel.Apart

/-- Readings of two parallel texts. -/
def simulation : LineSimulation where
  source := parallel.source
  other := parallel.other
  Alike := Token.Alike parallel.line
  Relates before after same rule rule' :=
    Mirrors (parallel.Stand before) (parallel.Stand after) same rule rule'
  kind := Token.Alike.kind
  value := Token.Alike.value
  counterpart token :=
    ⟨{ token with start := { token.start with line := parallel.line token.start.line } },
      rfl, rfl, rfl⟩
  pure := .pure
  bind := .bind
  fail _ := .fail _ _
  failAt _ _ := fun _ _ _ _ _ read => nomatch read
  seesAny := .seesAny parallel.inStep
  branch := .branch parallel.inStep
  typeExpr := .typeExpr fun together => parallel.ended (parallel.apart together)
  propertyValue := parallel.propertyValue
  items _ consumes consumes' related :=
    .many_untilClosed parallel.inStep parallel.ended (fun _ _ => parallel.apart) rfl
      Rule.forward_skipSpacing Rule.forward_skipSpacing (fun _ => consumes) (fun _ => consumes')
      parallel.skipSpacing fun _ _ _ => related.weaken fun _ _ => parallel.apart
  keep := parallel.keep
  parted related := related.weaken fun _ _ => parallel.apart
  met related := related.strengthen fun _ _ => parallel.apart
  current := parallel.current
  trailingComment alike := parallel.trailingComment alike.line
  lineEnd := parallel.lineEnd
  skipSpacing := parallel.skipSpacing
  docs := parallel.docs
  block _ forward consumes consumes' leads items :=
    .many_untilClosed parallel.inStep parallel.ended (fun _ _ => parallel.apart) rfl forward forward
      consumes consumes' leads items
  many {_ _ standing _ _ _} shrinks shrinks' related := by
    refine Mirrors.many (fun {first second} stand => ?_) shrinks shrinks' related.round
    cases standing with
    | together => exact parallel.ended (parallel.apart stand)
    | apart => exact parallel.ended stand

/-- The declarations of parallel texts are the same but for docs. -/
theorem declarations :
    Mirrors parallel.Apart parallel.Apart (Seen (List.map (Declaration.mapDocs parallel.keep)))
      (many (Rule.declaration? parallel.source)) (many (Rule.declaration? parallel.other)) :=
  parallel.simulation.declarations

end Parallel

end ApiDescription
