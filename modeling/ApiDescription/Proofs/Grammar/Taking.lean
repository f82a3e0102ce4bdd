import ApiDescription.Proofs.Grammar.Answers
import ApiDescription.Proofs.Grammar.Closing

/-!
# What rules take

`Takes` says which tokens a rule takes and how its answer fits them, if all tokens ahead
have some property. What rules in turn take is put together from what each of them does.
-/

namespace ApiDescription.Rule

variable {α β : Type} {Known : Token → Prop} {Taken : α → List Token → Prop}

/-- In front of a token other than the end of the text, that token is ahead. -/
theorem ahead_eq_current_cons {stream : Stream} (ended : stream.Ended)
    (goesOn : stream.current.kind ≠ .endOfText) :
    stream.ahead = stream.current :: stream.next.ahead ∧ stream.next.Ended := by
  obtain ⟨token, rest, ahead⟩ := List.exists_cons_of_ne_nil (Stream.ahead_ne_nil ended goesOn)
  refine ⟨by rw [Stream.current_of_cons ahead, Stream.ahead_next ahead, ahead], ?_⟩
  rw [← Stream.skip_one]
  exact ended.skip 1

/-- What a rule answers fits the tokens it takes, if all tokens ahead have some property. -/
def Takes (Known : Token → Prop) (Taken : α → List Token → Prop) (rule : Rule α) : Prop :=
  ∀ stream value next, stream.Ended → (∀ token ∈ stream.ahead, Known token) →
    rule stream = .ok value next →
      ∃ used, stream.ahead = used ++ next.ahead ∧ next.Ended ∧ Taken value used

namespace Takes

theorem pure {value : α} (fits : Taken value []) : Takes Known Taken (pure value) := by
  intro stream found next ended _ read
  cases read
  exact ⟨[], rfl, ended, fits⟩

theorem fail (cause : Token → SyntaxError.Cause) : Takes Known Taken (fail cause) :=
  fun _ _ _ _ _ read => nomatch read

/-- Rules in turn take the tokens of one after those of the other. -/
theorem bind {Behind : β → List Token → Prop} {first : Rule α} {second : α → Rule β}
    (takes : Takes Known Taken first)
    (later : ∀ value used, Taken value used →
      Takes Known (fun answer more => Behind answer (used ++ more)) (second value)) :
    Takes Known Behind (first >>= second) := by
  intro stream answer next ended known read
  obtain ⟨value, middle, readFirst, readSecond⟩ := bind_eq_ok_iff.mp read
  obtain ⟨used, split, middleEnded, fits⟩ := takes stream value middle ended known readFirst
  have middleKnown : ∀ token ∈ middle.ahead, Known token := fun token member =>
    known token (by rw [split]; exact List.mem_append_right _ member)
  obtain ⟨more, middleSplit, nextEnded, behind⟩ :=
    later value used fits middle answer next middleEnded middleKnown readSecond
  exact ⟨used ++ more, by rw [split, middleSplit, List.append_assoc], nextEnded, behind⟩

/-- An answer made of what was read. -/
theorem map {Behind : β → List Token → Prop} {rule : Rule α} (takes : Takes Known Taken rule)
    {f : α → β} (follows : ∀ value used, Taken value used → Behind (f value) used) :
    Takes Known Behind (rule >>= fun value => Pure.pure (f value)) :=
  takes.bind fun value used fits => .pure (by rw [List.append_nil]; exact follows value used fits)

/-- A token of some kind is taken. -/
theorem expect {kind : Kind} (goesOn : kind ≠ .endOfText) :
    Takes Known (fun token used => used = [token] ∧ token.kind = kind ∧ Known token)
      (expect kind) := by
  intro stream token next ended known read
  obtain ⟨rest, ahead, isKind, rfl, nextEnded⟩ := exists_cons_of_expect goesOn ended read
  refine ⟨[token], ?_, nextEnded, rfl, isKind, known token (by simp [ahead])⟩
  rw [ahead, Stream.ahead_next ahead, List.singleton_append]

/-- A token is taken if it is of some kind. -/
theorem accepts {kind : Kind} (goesOn : kind ≠ .endOfText) :
    Takes Known (fun found used =>
      if found = true then ∃ token, used = [token] ∧ token.kind = kind ∧ Known token
      else used = []) (accepts kind) := by
  intro stream found next ended known read
  rw [accepts_apply] at read
  split at read
  · next isKind =>
    cases read
    obtain ⟨ahead, nextEnded⟩ := ahead_eq_current_cons ended (isKind ▸ goesOn)
    refine ⟨[stream.current], ahead, nextEnded, ?_⟩
    exact ⟨stream.current, rfl, isKind, known _ (by rw [ahead]; exact List.mem_cons_self)⟩
  · cases read
    exact ⟨[], rfl, ended, rfl⟩

/-- The text of a token is read with the token if it is of some kind. -/
theorem textIf {kind : Kind} (goesOn : kind ≠ .endOfText) :
    Takes Known (fun found used =>
      (∃ token, used = [token] ∧ found = token.text ∧ token.kind = kind ∧ Known token) ∨
        (used = [] ∧ found = [])) (textIf kind) := by
  intro stream found next ended known read
  rw [textIf_apply] at read
  split at read
  · next isKind =>
    cases read
    obtain ⟨ahead, nextEnded⟩ := ahead_eq_current_cons ended (isKind ▸ goesOn)
    refine ⟨[stream.current], ahead, nextEnded, .inl ⟨stream.current, rfl, rfl, isKind, ?_⟩⟩
    exact known _ (by rw [ahead]; exact List.mem_cons_self)
  · cases read
    exact ⟨[], rfl, ended, .inr ⟨rfl, rfl⟩⟩

/-- A name is taken. -/
theorem expectName :
    Takes Known (fun token used => used = [token] ∧ token.isName = true ∧ Known token)
      expectName := by
  intro stream token next ended known read
  rw [expectName_apply] at read
  split at read
  · next isName =>
    cases read
    obtain ⟨ahead, nextEnded⟩ := ahead_eq_current_cons ended fun atEnd => by
      simp [Token.isName, atEnd] at isName
    exact ⟨[stream.current], ahead, nextEnded, rfl, isName,
      known _ (by rw [ahead]; exact List.mem_cons_self)⟩
  · cases read

/-- Nothing is taken where a fault is not met. -/
theorem refuseIf {condition : Prop} [Decidable condition] (token : Token)
    (cause : SyntaxError.Cause) :
    Takes Known (fun _ used => used = [] ∧ ¬condition) (refuseIf condition token cause) := by
  intro stream value next ended _ read
  unfold Rule.refuseIf at read
  split at read
  · cases read
  · next fails =>
    cases read
    exact ⟨[], rfl, ended, rfl, fails⟩

/-- What is known of the answer of a rule that moves forward. -/
theorem of_answers {P : α → Prop} {rule : Rule α} (forward : Forward rule)
    (answers : Answers Known P rule) : Takes Known (fun value _ => P value) rule := by
  intro stream value next ended known read
  obtain ⟨used, split, nextEnded⟩ := forward.exists_taken ended read
  exact ⟨used, split, nextEnded, answers stream value next ended known read⟩

/-- A rule that moves forward takes some tokens. -/
theorem of_forward {rule : Rule α} (forward : Forward rule) :
    Takes Known (fun _ _ => True) rule :=
  .of_answers forward fun _ _ _ _ _ _ => trivial

/-- What follows for the answer and the tokens, which are known as well. -/
theorem weaken {Known' : Token → Prop} {Behind : α → List Token → Prop} {rule : Rule α}
    (takes : Takes Known Taken rule) (narrow : ∀ token, Known' token → Known token)
    (follows : ∀ value used, (∀ token ∈ used, Known' token) → Taken value used →
      Behind value used) : Takes Known' Behind rule := by
  intro stream value next ended known read
  obtain ⟨used, split, nextEnded, taken⟩ :=
    takes stream value next ended (fun token member => narrow token (known token member)) read
  refine ⟨used, split, nextEnded, follows value used (fun token member => ?_) taken⟩
  exact known token (by rw [split]; exact List.mem_append_left _ member)

end Takes

end ApiDescription.Rule
