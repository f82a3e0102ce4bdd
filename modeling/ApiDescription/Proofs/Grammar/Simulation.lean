import ApiDescription.Proofs.Grammar.Progress
import Mathlib.Data.Option.Basic

/-!
# Simulations

Two readings are compared rule by rule: of the same tokens in two places, of two texts that are
the same up to some token, of two texts that differ in what stands between their lines. Each such
comparison is a relation of rules, and what it takes is that the relation is kept by the few ways
in which the grammar builds a rule from others. A `Simulation` is a relation that is kept inside a
line, and a `LineSimulation` one that is kept across the ends of lines as well. Every rule of the
grammar is then related to itself, or to itself over the other source.
-/

namespace ApiDescription

/-- The cause that a map of tokens makes of a cause. -/
def SyntaxError.Cause.map (move : Token → Token) : SyntaxError.Cause → SyntaxError.Cause
  | .expectedKind kind found => .expectedKind kind (move found)
  | .expectedName found => .expectedName (move found)
  | .expectedType found => .expectedType (move found)
  | .expectedLineEnd found => .expectedLineEnd (move found)
  | .unexpectedDeclaration found => .unexpectedDeclaration (move found)
  | cause => cause

/-- The kinds of tokens that stand between what lines say. -/
def Kind.isBreak : Kind → Bool
  | .newline | .comment | .endOfText => true
  | _ => false

/-- Names stand inside lines. -/
theorem Token.isBreak_of_isName {token : Token} (named : token.isName = true) :
    token.kind.isBreak = false := by
  unfold isName at named
  split at named
  · next kind => rw [kind]; rfl
  · next kind => rw [kind]; rfl
  · cases named

/-- Every value has a counterpart in a relation. -/
class HasCounterparts {α β : Type} (same : α → β → Prop) : Prop where
  exists_counterpart : ∀ value, ∃ answer, same value answer

export HasCounterparts (exists_counterpart)

/-- Answers look the same in a view of them. -/
def Seen {α γ : Type} (view : α → γ) (value answer : α) : Prop := view answer = view value

section Counterparts

variable {α β γ : Type} {same : α → β → Prop}

instance : HasCounterparts (@Eq α) := ⟨fun value => ⟨value, rfl⟩⟩

instance (view : α → γ) : HasCounterparts (Seen view) := ⟨fun value => ⟨value, rfl⟩⟩

instance [HasCounterparts same] : HasCounterparts (List.Forall₂ same) where
  exists_counterpart values := by
    induction values with
    | nil => exact ⟨[], .nil⟩
    | cons value values inductionHypothesis =>
      obtain ⟨answer, sameHead⟩ : ∃ answer, same value answer := exists_counterpart value
      obtain ⟨answers, sameTail⟩ := inductionHypothesis
      exact ⟨answer :: answers, .cons sameHead sameTail⟩

end Counterparts

/-- Lists with the same items are the same. -/
theorem eq_of_forall₂ {α : Type} {values answers : List α}
    (same : List.Forall₂ Eq values answers) : values = answers := by
  rwa [List.forall₂_eq_eq_eq] at same

theorem forall₂_of_eq {α : Type} {values answers : List α} (same : values = answers) :
    List.Forall₂ Eq values answers := by
  rwa [List.forall₂_eq_eq_eq]

/-- Lists whose items look the same look the same. -/
theorem Seen.of_forall₂ {α γ : Type} {view : α → γ} {values answers : List α}
    (same : List.Forall₂ (Seen view) values answers) : Seen (List.map view) values answers := by
  induction same with
  | nil => rfl
  | cons head _ inductionHypothesis => exact congrArg₂ List.cons head inductionHypothesis

namespace Rule

variable {α : Type}

/-- Goes on behind the next token as that token says, or in front of it if it says nothing. -/
def branch (behind : Token → Option (Rule α)) (otherwise : Rule α) : Rule α := fun stream =>
  match behind stream.current with
  | some rule => rule stream.next
  | none => otherwise stream

/-- A rule that takes the next token if it is of some class. -/
theorem eq_branch {rule otherwise : Rule α} (p : Token → Prop) [DecidablePred p]
    (value : Token → α)
    (apply : ∀ stream, rule stream =
      if p stream.current then .ok (value stream.current) stream.next else otherwise stream) :
    rule = branch (fun token => if p token then some (pure (value token)) else none) otherwise := by
  funext stream
  rw [apply, branch]
  by_cases holds : p stream.current
  · simp only [if_pos holds, pure_apply]
  · simp only [if_neg holds]

/-- A choice by the next token, which is taken where it says what to do. -/
theorem branch_eq (behind : Token → Option (Rule α)) (otherwise : Rule α) :
    branch behind otherwise = current >>= fun token =>
      match behind token with
      | some rule => advance >>= fun _ => rule
      | none => otherwise := by
  funext stream
  rw [branch, bind_apply, current_apply]
  dsimp only
  cases behind stream.current <;> rfl

/-- A round of a loop between brackets ends the loop behind the closing bracket, and must not meet
the end of the text in front of it. -/
theorem untilClosed_eq {β : Type} (lead : Rule β) (closing : Kind) (fault : SyntaxError.Cause)
    (item : β → Rule α) :
    untilClosed lead closing fault item = lead >>= fun led =>
      branch (fun token => if token.kind = closing then some (pure none) else none) <|
        current >>= fun token =>
          if token.kind = .endOfText then fail fun _ => fault
          else item led >>= fun value => pure (some value) := by
  funext stream
  rw [bind_apply]
  cases read : lead stream with
  | error failure next => rw [untilClosed_error read]
  | ok led next =>
    rw [untilClosed_apply read]
    dsimp only
    rw [branch]
    by_cases closes : next.current.kind = closing
    · simp only [if_pos closes, pure_apply]
    · simp only [if_neg closes, bind_apply, current_apply]
      split <;> rfl

/-- A type is told by the token it begins with. -/
theorem typeWithin_succ_eq (depth : Nat) :
    typeWithin (depth + 1) = branch (typeBehind depth) (fail .expectedType) := by
  funext stream
  rw [typeWithin_succ_apply, branch]
  cases typeBehind depth stream.current <;> rfl

/-- No type begins between lines. -/
theorem typeBehind_of_isBreak {depth : Nat} {token : Token}
    (isBreak : token.kind.isBreak = true) : typeBehind depth token = none := by
  unfold typeBehind
  split <;> simp_all [Kind.isBreak]

/-- What a marker introduces above a route, and the spacing behind it. -/
def noteOf (source : List Char) (token : Token) : Option (Rule (Option RouteNote)) :=
  match token.kind with
  | .marker found =>
    some (noteBehind source found >>= fun note => skipSpacing >>= fun _ => pure (some note))
  | _ => none

/-- An annotation of a route is told by its marker. -/
theorem routeNote?_eq (source : List Char) :
    routeNote? source = branch (noteOf source) (pure none) := by
  funext stream
  rw [routeNote?_apply, branch, noteOf]
  cases stream.current.kind <;> rfl

/-- Below its docs a declaration is told by the token it begins with. -/
theorem declarationBelow_eq (source : List Char) (docs : List Text) :
    declarationBelow source docs = current >>= fun token =>
      match declarationOf source docs token.kind with
      | some declared => declared >>= fun declaration => pure (some declaration)
      | none => if token.kind = .endOfText then pure none else fail .unexpectedDeclaration := by
  funext stream
  rw [declarationBelow, bind_apply, current_apply]
  dsimp only
  cases declarationOf source docs stream.current.kind with
  | some declared => rfl
  | none =>
    by_cases atEnd : stream.current.kind = .endOfText
    · simp only [if_pos atEnd, pure_apply]
    · simp only [if_neg atEnd]

/-- No annotation begins between lines. -/
theorem noteOf_of_isBreak {source : List Char} {token : Token}
    (isBreak : token.kind.isBreak = true) : noteOf source token = none := by
  unfold noteOf
  split
  · next kind => simp [kind, Kind.isBreak] at isBreak
  · rfl

end Rule

/-- Two rules end alike: with answers that are the same in some sense or with faults that are, and
in front of streams that are related. -/
inductive Rule.Agree {α β : Type} (same : α → β → Prop) (blames : SyntaxError → SyntaxError → Prop)
    (related : Stream → Stream → Prop) :
    EStateM.Result SyntaxError Stream α → EStateM.Result SyntaxError Stream β → Prop
  | ok {value : α} {answer : β} {next left : Stream} (holds : same value answer)
      (behind : related next left) : Agree same blames related (.ok value next) (.ok answer left)
  | error {fault blame : SyntaxError} {next left : Stream} (blamed : blames fault blame)
      (behind : related next left) :
      Agree same blames related (.error fault next) (.error blame left)

/-- How two readings stand: together in front of tokens that are alike, or apart until the line
feeds and comments there have been passed. -/
inductive Standing where
  | together
  | apart

/-- A way to compare the rules of two readings that is kept inside a line. -/
structure Simulation where
  source : List Char
  other : List Char
  /-- What two tokens have in common that are read at one time. -/
  Alike : Token → Token → Prop
  /-- What two rules have in common that are read as the readings stand before and after them,
  if what they answer is the same in some sense. -/
  Relates {α β : Type} (before after : Standing) (same : α → β → Prop) : Rule α → Rule β → Prop
  kind {token found : Token} : Alike token found → found.kind = token.kind
  value {token found : Token} : Alike token found → found.value = token.value
  counterpart (token : Token) : ∃ found, Alike token found
  protected pure {α β : Type} {standing : Standing} {same : α → β → Prop} {value : α} {answer : β}
    (holds : same value answer) : Relates standing standing same (pure value) (pure answer)
  protected bind {α β γ δ : Type} {before middle after : Standing} {same : α → β → Prop}
    {seen : γ → δ → Prop} [HasCounterparts same] {rule : Rule α} {rule' : Rule β}
    {later : α → Rule γ} {later' : β → Rule δ} (earlier : Relates before middle same rule rule')
    (behind : ∀ value answer, same value answer →
      Relates middle after seen (later value) (later' answer)) :
    Relates before after seen (rule >>= later) (rule' >>= later')
  fail {α β : Type} {standing : Standing} {same : α → β → Prop} {cause : Token → SyntaxError.Cause}
    (natural : ∀ move token, cause (move token) = (cause token).map move) :
    Relates .together standing same (Rule.fail cause) (Rule.fail cause)
  failAt {α β : Type} {before after : Standing} {same : α → β → Prop} {token found : Token}
    {cause : SyntaxError.Cause} (alike : Alike token found)
    (natural : ∀ move, cause.map move = cause) :
    Relates before after same (Rule.failAt token cause) (Rule.failAt found cause)
  seesAny {kinds : List Kind} (inLine : ∀ kind ∈ kinds, kind.isBreak = false) :
    Relates .together .together Eq (Rule.seesAny kinds) (Rule.seesAny kinds)
  branch {α β : Type} {standing : Standing} {same : α → β → Prop} {behind : Token → Option (Rule α)}
    {behind' : Token → Option (Rule β)} {otherwise : Rule α} {otherwise' : Rule β}
    (inLine : ∀ token, token.kind.isBreak = true → behind token = none)
    (inLine' : ∀ token, token.kind.isBreak = true → behind' token = none)
    (alike : ∀ token found, Alike token found →
      Option.Rel (Relates .together standing same) (behind token) (behind' found))
    (without : Relates .together standing same otherwise otherwise') :
    Relates .together standing same (Rule.branch behind otherwise) (Rule.branch behind' otherwise')
  typeExpr (nested : ∀ depth,
      Relates .together .together Eq (Rule.typeWithin depth) (Rule.typeWithin depth)) :
    Relates .together .together Eq Rule.typeExpr Rule.typeExpr
  propertyValue :
    Relates .together .together Eq (Rule.propertyValue source) (Rule.propertyValue other)
  /-- A loop whose items need not end with their lines. -/
  items {α : Type} {closing : Mark} {fault : SyntaxError.Cause} {item item' : Rule α}
    (natural : ∀ move, fault.map move = fault) (consumes : Rule.Consumes item)
    (consumes' : Rule.Consumes item') (related : Relates .together .together Eq item item') :
    Relates .together .together (List.Forall₂ Eq)
      (many (Rule.untilClosed Rule.skipSpacing (.mark closing) fault fun _ => item))
      (many (Rule.untilClosed Rule.skipSpacing (.mark closing) fault fun _ => item'))

namespace Simulation

variable (both : Simulation) {α β γ δ : Type} {before after : Standing} {same : α → β → Prop}
  {seen : γ → δ → Prop}

/-- What two rules have in common inside a line. -/
abbrev Inside (same : α → β → Prop) (rule : Rule α) (rule' : Rule β) : Prop :=
  both.Relates .together .together same rule rule'

instance : HasCounterparts both.Alike := ⟨both.counterpart⟩

theorem text {token found : Token} (alike : both.Alike token found) : found.text = token.text :=
  congrArg Text.ofString (both.value alike)

/-- A question with the same answer. -/
theorem question {value answer : Bool} (same : value = answer) :
    answer = true ↔ value = true := by
  rw [same]

/-- An answer made of the answer of a rule. -/
theorem answer [HasCounterparts same] {rule : Rule α} {rule' : Rule β}
    (related : both.Relates before after same rule rule') {f : α → γ} {g : β → δ}
    (natural : ∀ value answer, same value answer → seen (f value) (g answer)) :
    both.Relates before after seen (rule >>= fun value => pure (f value))
      (rule' >>= fun answer => pure (g answer)) :=
  both.bind related fun value answer holds => both.pure (natural value answer holds)

/-- Less may be said of the answers of a rule. -/
theorem coarsen [HasCounterparts same] {coarse : α → β → Prop} {rule : Rule α} {rule' : Rule β}
    (related : both.Relates before after same rule rule')
    (implies : ∀ value answer, same value answer → coarse value answer) :
    both.Relates before after coarse rule rule' := by
  have answered := both.answer (f := id) (g := id) related implies
  rwa [show (rule >>= fun value => pure (id value)) = rule from bind_pure rule,
    show (rule' >>= fun answer => pure (id answer)) = rule' from bind_pure rule'] at answered

/-- A choice on the same question. -/
theorem ite {condition other : Prop} [Decidable condition] [Decidable other] {yes no : Rule α}
    {yes' no' : Rule β} (same_iff : other ↔ condition)
    (holds : both.Relates before after same yes yes')
    (fails : both.Relates before after same no no') :
    both.Relates before after same (if condition then yes else no)
      (if other then yes' else no') := by
  by_cases asked : condition
  · rw [if_pos asked, if_pos (same_iff.mpr asked)]
    exact holds
  · rw [if_neg asked, if_neg (mt same_iff.mp asked)]
    exact fails

/-- A rule that takes the next token if it is of some class inside lines, and otherwise goes on
without it. -/
theorem take {rule otherwise : Rule α} {rule' otherwise' : Rule β} (p : Token → Prop)
    [DecidablePred p] (value : Token → α) (answer : Token → β)
    (apply : ∀ stream, rule stream =
      if p stream.current then .ok (value stream.current) stream.next else otherwise stream)
    (apply' : ∀ stream, rule' stream =
      if p stream.current then .ok (answer stream.current) stream.next else otherwise' stream)
    (alike : ∀ {token found : Token}, both.Alike token found →
      (p found ↔ p token) ∧ same (value token) (answer found))
    (inLine : ∀ token, p token → token.kind.isBreak = false)
    (without : both.Inside same otherwise otherwise') : both.Inside same rule rule' := by
  have outside {token : Token} (isBreak : token.kind.isBreak = true) : ¬p token := fun holds => by
    simp [inLine token holds] at isBreak
  rw [Rule.eq_branch p value apply, Rule.eq_branch p answer apply']
  refine both.branch (fun _ isBreak => if_neg (outside isBreak))
    (fun _ isBreak => if_neg (outside isBreak)) (fun token found isAlike => ?_) without
  obtain ⟨sameClass, sameAnswer⟩ := alike isAlike
  by_cases holds : p token
  · rw [if_pos holds, if_pos (sameClass.mpr holds)]
    exact .some (both.pure sameAnswer)
  · rw [if_neg holds, if_neg (mt sameClass.mp holds)]
    exact .none

theorem sees {kind : Kind} (inLine : kind.isBreak = false) :
    both.Inside Eq (Rule.sees kind) (Rule.sees kind) := by
  have one : Rule.sees kind = Rule.seesAny [kind] := by
    funext stream
    simp [Rule.sees_apply, Rule.seesAny_apply]
  rw [one]
  exact both.seesAny (by simpa using inLine)

theorem accepts {kind : Kind} (inLine : kind.isBreak = false) :
    both.Inside Eq (Rule.accepts kind) (Rule.accepts kind) :=
  both.take (·.kind = kind) (fun _ => true) (fun _ => true) (Rule.accepts_apply kind)
    (Rule.accepts_apply kind) (fun alike => ⟨by rw [both.kind alike], rfl⟩)
    (fun _ found => found ▸ inLine) (both.pure rfl)

theorem textIf {kind : Kind} (inLine : kind.isBreak = false) :
    both.Inside Eq (Rule.textIf kind) (Rule.textIf kind) :=
  both.take (·.kind = kind) Token.text Token.text (Rule.textIf_apply kind)
    (Rule.textIf_apply kind) (fun alike => ⟨by rw [both.kind alike], (both.text alike).symm⟩)
    (fun _ found => found ▸ inLine) (both.pure rfl)

theorem expect {kind : Kind} (inLine : kind.isBreak = false) :
    both.Inside both.Alike (Rule.expect kind) (Rule.expect kind) :=
  both.take (·.kind = kind) id id (Rule.expect_apply kind) (Rule.expect_apply kind)
    (fun alike => ⟨by rw [both.kind alike], alike⟩) (fun _ found => found ▸ inLine)
    (both.fail fun _ _ => rfl)

theorem expectName : both.Inside both.Alike Rule.expectName Rule.expectName :=
  both.take (fun token => token.isName = true) id id Rule.expectName_apply Rule.expectName_apply
    (fun alike => ⟨by simp only [Token.isName, both.kind alike], alike⟩)
    (fun _ => Token.isBreak_of_isName) (both.fail fun _ _ => rfl)

theorem qualifiedName (name : Text) :
    both.Inside Eq (Rule.qualifiedName name) (Rule.qualifiedName name) :=
  both.bind (both.accepts rfl) fun _ _ same => both.ite (question same)
    (both.answer (both.expect rfl) fun _ _ alike => by rw [both.text alike]) (both.pure rfl)

/-- What stands behind the first token of a type is related if the types inside are. -/
theorem typeBehind {depth : Nat}
    (nested : both.Inside Eq (Rule.typeWithin depth) (Rule.typeWithin depth)) {token found : Token}
    (alike : both.Alike token found) :
    Option.Rel (both.Inside Eq) (Rule.typeBehind depth token) (Rule.typeBehind depth found) := by
  unfold Rule.typeBehind
  rw [both.kind alike]
  cases token.kind with
  | keyword word =>
    cases word with
    | map =>
      exact .some (both.bind (both.expect rfl) fun _ _ _ => both.bind nested fun _ _ sameKey =>
        both.bind (both.expect rfl) fun _ _ _ => both.answer nested fun _ _ same => by
          rw [sameKey, same])
    | interface =>
      exact .some (both.bind (both.expect rfl) fun _ _ _ =>
        both.answer (both.expect rfl) fun _ _ _ => rfl)
    | _ => exact .none
  | mark mark =>
    cases mark with
    | star => exact .some (both.answer nested fun _ _ same => by rw [same])
    | leftBracket =>
      exact .some (both.bind (both.textIf rfl) fun _ _ sameSize =>
        both.bind (both.expect rfl) fun _ _ _ => both.answer nested fun _ _ same => by
          rw [sameSize, same])
    | _ => exact .none
  | identifier =>
    rw [both.text alike]
    exact .some (both.answer (both.qualifiedName _) fun _ _ same => by rw [same])
  | _ => exact .none

/-- A type is read alike at every depth, because types are told apart by their first tokens. -/
theorem typeWithin (depth : Nat) :
    both.Inside Eq (Rule.typeWithin depth) (Rule.typeWithin depth) := by
  induction depth with
  | zero => exact both.fail fun _ _ => rfl
  | succ depth nested =>
    rw [Rule.typeWithin_succ_eq]
    exact both.branch (fun _ => Rule.typeBehind_of_isBreak) (fun _ => Rule.typeBehind_of_isBreak)
      (fun _ _ => both.typeBehind nested) (both.fail fun _ _ => rfl)

theorem bodyType : both.Inside Eq Rule.bodyType Rule.bodyType :=
  both.bind (both.expect rfl) fun _ _ _ => both.bind (both.accepts rfl) fun _ _ same =>
    both.ite (question same) (both.pure rfl) <|
      both.bind (both.typeExpr both.typeWithin) fun _ _ same =>
        both.answer (both.expect rfl) fun _ _ _ => congrArg some same

theorem bodyIf {found : Rule Bool} (related : both.Inside Eq found found) :
    both.Inside Eq (Rule.bodyIf found) (Rule.bodyIf found) :=
  both.bind related fun _ _ same => both.ite (question same) both.bodyType (both.pure rfl)

theorem refuseIf {condition : Prop} [Decidable condition] {standing : Standing}
    {token found : Token}
    {cause : SyntaxError.Cause} (alike : both.Alike token found)
    (natural : ∀ move, cause.map move = cause) :
    both.Relates standing standing Eq (Rule.refuseIf condition token cause)
      (Rule.refuseIf condition found cause) :=
  both.ite Iff.rfl (both.failAt alike natural) (both.pure rfl)

theorem memberHead : both.Inside Eq Rule.memberHead Rule.memberHead := by
  have type := both.typeExpr both.typeWithin
  refine both.bind (both.sees rfl) fun _ _ same => both.ite (question same)
    (both.answer type fun _ _ same => by rw [same]) ?_
  refine both.bind both.expectName fun _ _ alike => both.bind (both.sees rfl) fun _ _ same => ?_
  rw [both.text alike]
  exact both.ite (question same) (both.answer (both.qualifiedName _) fun _ _ same => by rw [same])
    (both.bind (both.seesAny (by decide)) fun _ _ same => both.ite (question same)
      (both.answer type fun _ _ same => by rw [same]) (both.pure rfl))

theorem importedFile : both.Inside Eq Rule.importedFile Rule.importedFile :=
  both.answer (both.expect rfl) fun _ _ alike => (both.text alike).symm

theorem property :
    both.Inside Eq (Rule.property both.source) (Rule.property both.other) :=
  both.bind both.expectName fun _ _ alike => both.bind (both.expect rfl) fun _ _ _ =>
    both.answer both.propertyValue fun _ _ same => by rw [both.text alike, same]

theorem propertyBlock :
    both.Inside Eq (Rule.propertyBlock both.source) (Rule.propertyBlock both.other) := by
  unfold Rule.propertyBlock
  rw [Rule.property?_eq, Rule.property?_eq]
  exact both.bind (both.expect rfl) fun _ _ _ => both.answer
    (both.items (fun _ => rfl) (Rule.consumes_property _) (Rule.consumes_property _) both.property)
    fun _ _ same => by rw [eq_of_forall₂ same]

theorem info : both.Inside Eq (Rule.info both.source) (Rule.info both.other) :=
  both.bind (both.expect rfl) fun _ _ _ =>
    both.answer both.propertyBlock fun _ _ same => by rw [same]

theorem noteBehind (found : Marker) :
    both.Inside Eq (Rule.noteBehind both.source found) (Rule.noteBehind both.other found) := by
  cases found with
  | doc =>
    exact both.take (·.kind = .quotedText) (fun token => .doc { text := token.text })
      (fun token => .doc { text := token.text }) (Rule.noteBehind_doc_apply _)
      (Rule.noteBehind_doc_apply _)
      (fun alike => ⟨by rw [both.kind alike], by rw [both.text alike]⟩)
      (fun _ found => found ▸ rfl)
      (both.answer both.propertyBlock fun _ _ same => by rw [same])
  | server => exact both.answer both.propertyBlock fun _ _ same => by rw [same]
  | handler => exact both.answer both.expectName fun _ _ alike => by rw [both.text alike]

section Spacing

variable (spacing : both.Inside Eq Rule.skipSpacing Rule.skipSpacing)

include spacing

/-- An annotation of a route skips the spacing behind it. -/
theorem routeNote? :
    both.Inside (Option.Rel Eq) (Rule.routeNote? both.source) (Rule.routeNote? both.other) := by
  rw [Rule.routeNote?_eq, Rule.routeNote?_eq]
  refine both.branch (fun _ => Rule.noteOf_of_isBreak) (fun _ => Rule.noteOf_of_isBreak)
    (fun token found alike => ?_) (both.pure .none)
  unfold Rule.noteOf
  rw [both.kind alike]
  cases token.kind with
  | marker marker =>
    exact .some (both.bind (both.noteBehind marker) fun _ _ same =>
      both.answer spacing fun _ _ _ => .some same)
  | _ => exact .none

theorem groupServer :
    both.Inside Eq (Rule.groupServer both.source) (Rule.groupServer both.other) :=
  both.bind (both.accepts rfl) fun _ _ same => both.ite (question same)
    (both.bind both.propertyBlock fun _ _ same =>
      both.answer spacing fun _ _ _ => congrArg some same)
    (both.pure rfl)

end Spacing

end Simulation

end ApiDescription
