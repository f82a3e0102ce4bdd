import ApiDescription.Proofs.Grammar.Progress

/-!
# Where constructs end

A construct that has been read ends with a line feed, which it took, or with a bracket; or
else something other than spacing comes next. Docs are looked for only there. Behind a
bracket the line goes on, and that is where a comment may document something although it
stands behind something else.
-/

namespace ApiDescription

/-- Whether a token is a bracket behind which docs are looked for. -/
def Token.isBracket (token : Token) : Bool :=
  match token.kind with
  | .mark .leftBrace | .mark .rightBrace | .mark .leftParen | .mark .rightParen => true
  | _ => false

/-- Whether docs are looked for behind a mark. -/
def Mark.isBracket : Mark → Bool
  | .leftBrace | .rightBrace | .leftParen | .rightParen => true
  | _ => false

/-- A token is a bracket if its mark is. -/
theorem Token.isBracket_of_kind {token : Token} {mark : Mark} (isMark : token.kind = .mark mark) :
    token.isBracket = mark.isBracket := by
  simp only [isBracket, isMark]
  cases mark <;> rfl

/-- Whether a token may be the last one in front of docs. -/
def Token.isBoundary (token : Token) : Bool := token.isBracket || token.kind == .newline

/-- A stream between constructs: what stands in front of it ends with a line feed or a bracket,
if no token of a construct comes next. -/
def Between (passed : List Token) (stream : Stream) : Prop :=
  (∀ token ∈ passed.getLast?, token.isBoundary = true) ∨ stream.current.isSpacing = false

namespace Rule

variable {α β : Type}

/-- A rule that ends a construct, by a line feed or a bracket. -/
def Closes (rule : Rule α) : Prop :=
  ∀ stream value next, stream.Ended → rule stream = .ok value next →
    ∃ taken, stream.ahead = taken ++ next.ahead ∧ ∀ passed, Between (passed ++ taken) next

/-- A rule moves behind the tokens it takes. -/
theorem Forward.exists_taken {rule : Rule α} (forward : Forward rule) {stream next : Stream}
    {value : α} (ended : stream.Ended) (read : rule stream = .ok value next) :
    ∃ taken, stream.ahead = taken ++ next.ahead ∧ next.Ended := by
  obtain ⟨count, rfl⟩ := forward.of_ok ended read
  exact ⟨stream.ahead.take count, (List.take_append_drop ..).symm, ended⟩

/-- A token that has to be of some kind is the first of those ahead. -/
theorem exists_cons_of_expect {kind : Kind} {stream next : Stream} {token : Token}
    (goesOn : kind ≠ .endOfText) (ended : stream.Ended)
    (read : expect kind stream = .ok token next) :
    ∃ rest, stream.ahead = token :: rest ∧ token.kind = kind ∧ next = stream.next ∧
      next.Ended := by
  have ends := ((consumes_expect goesOn).forward.exists_taken ended read).choose_spec.2
  rw [expect_apply] at read
  split at read
  · next isKind =>
    cases read
    obtain ⟨token, rest, ahead⟩ := List.exists_cons_of_ne_nil
      (Stream.ahead_ne_nil ended (isKind ▸ goesOn))
    rw [Stream.current_of_cons ahead] at isKind ⊢
    exact ⟨rest, ahead, isKind, rfl, ends⟩
  · cases read

namespace Closes

/-- Rules in turn end a construct if the last one does. -/
theorem bind_right {first : Rule α} {second : α → Rule β} (forward : Forward first)
    (later : ∀ value, Closes (second value)) : Closes (first >>= second) := by
  intro stream answer next ended read
  obtain ⟨value, middle, readFirst, readSecond⟩ := bind_eq_ok_iff.mp read
  obtain ⟨before, split, middleEnded⟩ := forward.exists_taken ended readFirst
  obtain ⟨taken, middleSplit, between⟩ := later value middle answer next middleEnded readSecond
  refine ⟨before ++ taken, by rw [split, middleSplit, List.append_assoc], ?_⟩
  intro passed
  rw [← List.append_assoc]
  exact between _

/-- What only answers changes nothing. -/
theorem bind_stays {first : Rule α} {second : α → Rule β} (closes : Closes first)
    (stays : ∀ value stream answer next, second value stream = .ok answer next → next = stream) :
    Closes (first >>= second) := by
  intro stream answer next ended read
  obtain ⟨value, middle, readFirst, readSecond⟩ := bind_eq_ok_iff.mp read
  obtain rfl := stays value middle answer next readSecond
  exact closes stream value _ ended readFirst

theorem map {rule : Rule α} (closes : Closes rule) (f : α → β) :
    Closes (rule >>= fun value => Pure.pure (f value)) :=
  closes.bind_stays fun value stream answer next read => by
    cases read
    rfl

theorem ite {condition : Prop} [Decidable condition] {first second : Rule α}
    (yes : Closes first) (no : Closes second) : Closes (if condition then first else second) := by
  split
  · exact yes
  · exact no

/-- A line ends with a line feed, or in front of a bracket or the end of the text. -/
theorem lineEnd : Closes lineEnd := by
  intro stream value next ended read
  rw [lineEnd_apply] at read
  split at read
  · next isFeed =>
    cases read
    obtain ⟨token, rest, ahead⟩ := List.exists_cons_of_ne_nil
      (Stream.ahead_ne_nil ended (by simp [isFeed]))
    rw [Stream.current_of_cons ahead] at isFeed
    refine ⟨[token], by rw [ahead, Stream.ahead_next ahead]; rfl, ?_⟩
    intro passed
    left
    simp [Token.isBoundary, isFeed]
  split at read
  · next isEnd =>
    cases read
    refine ⟨[], rfl, ?_⟩
    intro passed
    right
    simp only [List.mem_cons, List.not_mem_nil, or_false] at isEnd
    rcases isEnd with isEnd | isEnd | isEnd <;> simp [Token.isSpacing, isEnd]
  · cases read

/-- A loop between brackets ends with its closing bracket. -/
theorem many_untilClosed {lead : Rule β} {closing : Mark} {fault : SyntaxError.Cause}
    {item : β → Rule α} (before : Forward lead) (consumes : ∀ led, Consumes (item led))
    (bracket : closing.isBracket = true) :
    Closes (many (untilClosed lead (.mark closing) fault item)) := by
  intro stream values next ended read
  have forward : Forward (untilClosed lead (.mark closing) fault item) :=
    forward_untilClosed before fun led => (consumes led).forward
  obtain ⟨last, run, lastRead⟩ :=
    (many_eq_ok_iff (shrinks_untilClosed before consumes) ended).mp read
  obtain ⟨count, rfl⟩ := forward.rounds run ended
  obtain ⟨led, middle, readLead, -⟩ := bind_eq_ok_iff.mp lastRead
  obtain ⟨spacing, split, middleEnded⟩ := before.exists_taken (ended.skip count) readLead
  rw [untilClosed_apply readLead] at lastRead
  split at lastRead
  · next isClosing =>
    cases lastRead
    obtain ⟨token, rest, ahead⟩ := List.exists_cons_of_ne_nil
      (Stream.ahead_ne_nil middleEnded (by simp [isClosing]))
    rw [Stream.current_of_cons ahead] at isClosing
    refine ⟨stream.ahead.take count ++ (spacing ++ [token]), ?_, ?_⟩
    · have whole : stream.ahead = stream.ahead.take count ++ (stream.skip count).ahead :=
        (List.take_append_drop ..).symm
      refine whole.trans ?_
      rw [split, ahead, Stream.ahead_next ahead]
      simp
    · intro passed
      left
      simp [Token.isBoundary, Token.isBracket_of_kind isClosing, bracket, ← List.append_assoc]
  split at lastRead
  · cases lastRead
  · obtain ⟨_, _, _, answered⟩ := bind_eq_ok_iff.mp lastRead
    cases answered

end Closes

theorem closes_version : Closes version :=
  .bind_right (consumes_expect (by decide)).forward fun _ =>
    .bind_right (consumes_expect (by decide)).forward fun _ =>
      .bind_right (consumes_expect (by decide)).forward fun _ =>
        .bind_right (forward_trailingComment _) fun _ => Closes.lineEnd.map _

theorem closes_propertyBlock (source : List Char) : Closes (propertyBlock source) := by
  refine .bind_right (consumes_expect (by decide)).forward fun _ => ?_
  rw [property?_eq]
  exact .map (.many_untilClosed forward_skipSpacing (fun _ => consumes_property source) rfl) _

theorem closes_info (source : List Char) : Closes (info source) :=
  .bind_right (consumes_expect (by decide)).forward fun _ => (closes_propertyBlock source).map _

theorem closes_imports : Closes imports := by
  refine .bind_right (consumes_expect (by decide)).forward fun _ =>
    .bind_right (forward_accepts _) fun _ => .ite ?_ ?_
  · rw [groupedImport?_eq]
    exact .many_untilClosed forward_skipSpacing (fun _ => consumes_importedFile) rfl
  · exact .bind_right (consumes_expect (by decide)).forward fun _ => Closes.lineEnd.map _

theorem closes_member (docs : List Text) : Closes (member docs) := by
  rw [member_eq]
  exact .bind_right .current fun _ => .bind_right consumes_memberHead.forward fun _ =>
    .bind_right (forward_textIf _) fun _ => .bind_right (forward_trailingComment _) fun _ =>
      Closes.lineEnd.map _

theorem closes_members : Closes members := by
  rw [members, member?_eq]
  exact .many_untilClosed forward_docs consumes_member rfl

theorem closes_typeBody (docs : List Text) : Closes (typeBody docs) :=
  .bind_right consumes_expectName.forward fun _ => .bind_right (forward_accepts _) fun _ =>
    .ite (.bind_right (consumes_expect (by decide)).forward fun _ => closes_members.map _) <|
      .bind_right (forward_accepts _) fun _ => .ite (closes_members.map _) <|
        .bind_right (forward_accepts _) fun _ => .bind_right consumes_typeExpr.forward fun _ =>
          Closes.lineEnd.map _

theorem closes_typeDecls (docs : List Text) : Closes (typeDecls docs) := by
  refine .bind_right (consumes_expect (by decide)).forward fun _ =>
    .bind_right (forward_accepts _) fun _ => .ite ?_ ((closes_typeBody docs).map _)
  rw [groupedType?_eq]
  exact .many_untilClosed forward_docs consumes_typeBody rfl

theorem closes_routeLine (notes : RouteNotes) (docs : List Text) :
    Closes (routeLine notes docs) := by
  refine .bind_right consumes_expectName.forward fun _ =>
    .bind_right (forward_refuseIf _ _) fun _ =>
      .bind_right (consumes_expect (by decide)).forward fun _ =>
        .bind_right (forward_bodyIf (.sees _)) fun _ =>
          .bind_right (forward_bodyIf (forward_accepts _)) fun _ =>
            .bind_right (forward_trailingComment _) fun _ => Closes.lineEnd.bind_stays ?_
  intro _ stream route next read
  obtain ⟨_, middle, refused, answered⟩ := bind_eq_ok_iff.mp read
  cases answered
  unfold refuseIf at refused
  split at refused <;> cases refused
  rfl

theorem closes_route (source : List Char) (docs : List Text) : Closes (route source docs) := by
  rw [route_eq]
  exact .bind_right ((forward_routeNote? source).many (shrinks_routeNote? source))
    fun _ => closes_routeLine _ docs

theorem closes_serviceGroup (source : List Char) : Closes (serviceGroup source) := by
  refine .bind_right (forward_groupServer source) fun _ =>
    .bind_right (consumes_expect (by decide)).forward fun _ =>
      .bind_right consumes_expectName.forward fun name =>
        .bind_right (consumes_expect (by decide)).forward fun _ => ?_
  rw [route?_eq]
  exact .map (.many_untilClosed forward_docs (consumes_route source) rfl) _

/-- Every declaration ends a construct. -/
theorem closes_declarationOf {source : List Char} {docs : List Text} {kind : Kind}
    {declared : Rule Declaration} (found : declarationOf source docs kind = some declared) :
    Closes declared := by
  unfold declarationOf at found
  split at found
  case h_1 =>
    cases found
    exact closes_version.map _
  case h_2 =>
    cases found
    exact (closes_info source).map _
  case h_3 =>
    cases found
    exact closes_imports.map _
  case h_4 =>
    cases found
    exact (closes_typeDecls docs).map _
  case h_5 | h_6 =>
    cases found
    exact (closes_serviceGroup source).map fun read => Declaration.group read.1 read.2
  case h_7 => cases found

/-- A round that ends a construct whenever it reads an item. -/
def ClosesItems (round : Rule (Option α)) : Prop :=
  ∀ stream item next, stream.Ended → round stream = .ok (some item) next →
    ∃ taken, stream.ahead = taken ++ next.ahead ∧ ∀ passed, Between (passed ++ taken) next

/-- An item between brackets ends a construct if its rule does. -/
theorem closesItems_untilClosed {lead : Rule β} {closing : Kind} {fault : SyntaxError.Cause}
    {item : β → Rule α} (before : Forward lead) (closes : ∀ led, Closes (item led)) :
    ClosesItems (untilClosed lead closing fault item) := by
  intro stream value next ended read
  obtain ⟨led, middle, readLead, -⟩ := bind_eq_ok_iff.mp read
  obtain ⟨spacing, split, middleEnded⟩ := before.exists_taken ended readLead
  rw [untilClosed_apply readLead] at read
  split at read
  · cases read
  split at read
  · cases read
  · obtain ⟨_, _, readItem, answered⟩ := bind_eq_ok_iff.mp read
    cases answered
    obtain ⟨taken, itemSplit, between⟩ := closes led middle _ _ middleEnded readItem
    refine ⟨spacing ++ taken, by rw [split, itemSplit, List.append_assoc], ?_⟩
    intro passed
    rw [← List.append_assoc]
    exact between _

/-- A declaration at the top level ends a construct. -/
theorem closesItems_declaration? (source : List Char) : ClosesItems (declaration? source) := by
  intro stream declaration next ended read
  rw [declaration?_eq] at read
  obtain ⟨docs, middle, readDocs, readBelow⟩ := bind_eq_ok_iff.mp read
  obtain ⟨spacing, split, middleEnded⟩ := forward_docs.exists_taken ended readDocs
  unfold declarationBelow at readBelow
  split at readBelow
  · next declared begins =>
    obtain ⟨_, _, readDeclared, answered⟩ := bind_eq_ok_iff.mp readBelow
    cases answered
    obtain ⟨taken, declaredSplit, between⟩ :=
      closes_declarationOf begins middle _ _ middleEnded readDeclared
    refine ⟨spacing ++ taken, by rw [split, declaredSplit, List.append_assoc], ?_⟩
    intro passed
    rw [← List.append_assoc]
    exact between _
  · split at readBelow <;> cases readBelow

end Rule

end ApiDescription
