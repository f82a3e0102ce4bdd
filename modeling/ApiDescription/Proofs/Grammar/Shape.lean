import ApiDescription.Grammar.Document
import ApiDescription.Proofs.Rounds
import Mathlib.Data.List.Forall2

/-!
# The shapes of rules

What the elementary rules do with a stream, said once without the notation they
are written in. The loops of the grammar share one shape: a round leads up to an
item, stops behind the bracket that closes the loop, and fails at the end of the
text. `untilClosed` is that shape, and every loop but that over the annotations of
a route is an instance of it.
-/

namespace ApiDescription

/-- Tokens that say the same, wherever they stand. -/
structure Token.SameWord (token other : Token) : Prop where
  kind : other.kind = token.kind
  value : other.value = token.value

/-- Spacing is made of line feeds and comments. -/
theorem Token.isSpacing_iff {token : Token} :
    token.isSpacing = true ↔ token.kind = .newline ∨ token.kind = .comment := by
  unfold isSpacing
  split <;> simp_all

/-- The end of the text is no spacing. -/
theorem Token.kind_ne_endOfText {token : Token} (spacing : token.isSpacing = true) :
    token.kind ≠ .endOfText := by
  rcases isSpacing_iff.mp spacing with kind | kind
  · simp [kind]
  · simp [kind]

namespace Stream

/-- A stream whose end token is an end of text. -/
def Ended (stream : Stream) : Prop := stream.finish.kind = .endOfText

/-- A stream at its end. -/
theorem current_of_nil {stream : Stream} (atEnd : stream.ahead = []) :
    stream.current = stream.finish := by
  rw [current, atEnd]
  rfl

/-- A stream in front of a token. -/
theorem current_of_cons {stream : Stream} {token : Token} {rest : List Token}
    (ahead : stream.ahead = token :: rest) : stream.current = token := by
  rw [current, ahead]
  rfl

/-- Only the end of the text is read as such, or else a token is ahead. -/
theorem ahead_ne_nil {stream : Stream} (ended : stream.Ended)
    (kind : stream.current.kind ≠ .endOfText) : stream.ahead ≠ [] := by
  intro atEnd
  rw [current_of_nil atEnd] at kind
  exact kind ended

/-- Behind a token that is ahead. -/
theorem ahead_next {stream : Stream} {token : Token} {rest : List Token}
    (ahead : stream.ahead = token :: rest) : stream.next.ahead = rest := by
  unfold next
  split
  · next atEnd => simp [ahead] at atEnd
  · next split =>
    rw [ahead] at split
    cases split
    rfl

/-- Moving on leaves the end where it is. -/
@[simp] theorem finish_next (stream : Stream) : stream.next.finish = stream.finish := by
  unfold next
  split <;> rfl

/-- Behind the leading tokens of a class. -/
theorem ahead_skip_takeWhile (stream : Stream) (p : Token → Bool) :
    (stream.skip (stream.ahead.takeWhile p).length).ahead = stream.ahead.dropWhile p := by
  have whole : stream.ahead = stream.ahead.takeWhile p ++ stream.ahead.dropWhile p :=
    List.takeWhile_append_dropWhile.symm
  exact (congrArg (List.drop _) whole).trans List.drop_left

section Finish

variable {others : List Token} {finish : Token}
  (goesOn : ∀ token ∈ others, token.kind ≠ .endOfText) (ends : finish.kind = .endOfText)

include goesOn ends

/-- The tokens in front of an end of text. -/
theorem takeWhile_append_finish :
    (others ++ [finish]).takeWhile (·.kind ≠ .endOfText) = others := by
  rw [List.takeWhile_append_of_pos (by simpa using goesOn)]
  simp [ends]

/-- The end of text behind other tokens is the first one. -/
theorem find?_append_finish :
    (others ++ [finish]).find? (·.kind = .endOfText) = some finish := by
  rw [List.find?_append, List.find?_eq_none.mpr (by simpa using goesOn)]
  simp [ends]

/-- A stream over tokens up to an end of text. -/
theorem ofTokens_append : ofTokens (others ++ [finish]) = ⟨others, finish, 0⟩ := by
  rw [ofTokens, takeWhile_append_finish goesOn ends, find?_append_finish goesOn ends]
  rfl

end Finish

end Stream

namespace Rule

variable {α β : Type}

theorem current_apply (stream : Stream) : current stream = .ok stream.current stream := rfl

theorem advance_apply (stream : Stream) : advance stream = .ok stream.current stream.next := rfl

theorem sees_apply (kind : Kind) (stream : Stream) :
    sees kind stream = .ok (decide (stream.current.kind = kind)) stream := rfl

theorem seesAny_apply (kinds : List Kind) (stream : Stream) :
    seesAny kinds stream = .ok (kinds.contains stream.current.kind) stream := rfl

theorem fail_apply (cause : Token → SyntaxError.Cause) (stream : Stream) :
    (fail cause : Rule α) stream =
      .error (.located (cause stream.current) stream.current.start) stream := rfl

/-- A token that has to be of some kind. -/
theorem expect_apply (kind : Kind) (stream : Stream) :
    expect kind stream =
      if stream.current.kind = kind then .ok stream.current stream.next
      else fail (.expectedKind kind) stream := by
  rw [expect, bind_apply, sees_apply]
  by_cases expected : stream.current.kind = kind
  · simp only [expected, decide_true, if_true]
    rfl
  · simp only [expected, decide_false, if_false, Bool.false_eq_true]

/-- A token that has to be a name. -/
theorem expectName_apply (stream : Stream) :
    expectName stream =
      if stream.current.isName then .ok stream.current stream.next
      else fail .expectedName stream := by
  rw [expectName, bind_apply, current_apply]
  by_cases expected : stream.current.isName = true
  · simp only [expected, if_true]
    rfl
  · simp only [expected, Bool.false_eq_true, if_false]

/-- A token that may be of some kind. -/
theorem accepts_apply (kind : Kind) (stream : Stream) :
    accepts kind stream =
      if stream.current.kind = kind then .ok true stream.next else .ok false stream := by
  rw [accepts, bind_apply, sees_apply]
  by_cases expected : stream.current.kind = kind
  · simp only [expected, decide_true, if_true]
    rfl
  · simp only [expected, decide_false, if_false, Bool.false_eq_true]
    rfl

/-- A comment that may stand on a line. -/
theorem trailingComment_apply (line : Nat) (stream : Stream) :
    trailingComment line stream =
      if stream.current.kind = .comment ∧ stream.current.start.line = line then
        .ok stream.current.text stream.next
      else .ok [] stream := by
  rw [trailingComment, bind_apply, current_apply]
  dsimp only
  split <;> rfl

/-- The end of a line. -/
theorem lineEnd_apply (stream : Stream) :
    lineEnd stream =
      if stream.current.kind = .newline then .ok () stream.next
      else if stream.current.kind ∈ [.mark .rightBrace, .mark .rightParen, .endOfText] then
        .ok () stream
      else fail .expectedLineEnd stream := by
  rw [lineEnd, bind_apply, sees_apply]
  by_cases feed : stream.current.kind = .newline
  · simp only [feed, decide_true, if_true]
    rfl
  · simp only [feed, decide_false, if_false, Bool.false_eq_true]
    rw [bind_apply, seesAny_apply]
    simp only [List.contains_iff_mem]
    split <;> rfl

/-- Docs are taken out of the run of spacing ahead. -/
theorem docs_apply (stream : Stream) :
    docs stream =
      let run := stream.ahead.takeWhile Token.isSpacing
      .ok (docsOfRun run [] 0) (stream.skip run.length) := rfl

/-- Without docs so far, line feeds seen so far do not matter. -/
theorem docsOfRun_nil (run : List Token) (feeds : Nat) :
    docsOfRun run [] feeds = docsOfRun run [] 0 := by
  induction run generalizing feeds with
  | nil => rfl
  | cons token run inductionHypothesis =>
    unfold docsOfRun
    split
    · rfl
    · split
      · next none => rw [if_pos rfl]
      · rw [if_pos rfl, inductionHypothesis, inductionHypothesis 1]

/-- A blank line drops the docs before it. -/
theorem docsOfRun_blank {feed blank : Token} (feedKind : feed.kind = .newline)
    (blankKind : blank.kind = .newline) (run later : List Token) (docs : List Text) (feeds : Nat) :
    docsOfRun (run ++ feed :: blank :: later) docs feeds = docsOfRun later [] 0 := by
  induction run generalizing docs feeds with
  | nil =>
    have noComment : feed.kind ≠ .comment := by simp [feedKind]
    have noComment' : blank.kind ≠ .comment := by simp [blankKind]
    simp only [List.nil_append, docsOfRun, if_neg noComment, if_neg noComment']
    split
    · exact docsOfRun_nil later _
    · exact docsOfRun_nil later _
  | cons token run inductionHypothesis =>
    rw [List.cons_append, docsOfRun]
    split
    · exact inductionHypothesis _ _
    · split <;> exact inductionHypothesis _ _

/-- Docs are the same of comments that say the same. -/
theorem docsOfRun_congr {run other : List Token} (same : List.Forall₂ Token.SameWord run other)
    (docs : List Text) (feeds : Nat) : docsOfRun other docs feeds = docsOfRun run docs feeds := by
  induction same generalizing docs feeds with
  | nil => rfl
  | cons same _ inductionHypothesis =>
    simp only [docsOfRun, Token.text, same.kind, same.value, inductionHypothesis]

theorem skipSpacing_eq : skipSpacing = spacing >>= fun _ => pure () := rfl

/-- The round of a loop between brackets: what leads up to an item, and the item, unless the
closing bracket comes next. -/
def untilClosed (lead : Rule β) (closing : Kind) (fault : SyntaxError.Cause) (item : β → Rule α) :
    Rule (Option α) := do
  let led ← lead
  if ← accepts closing then return none
  if ← sees .endOfText then fail fun _ => fault
  return some (← item led)

/-- What a round of a loop between brackets does once it has been led up to. -/
theorem untilClosed_apply {lead : Rule β} {closing : Kind} {fault : SyntaxError.Cause}
    {item : β → Rule α} {stream next : Stream} {led : β} (ahead : lead stream = .ok led next) :
    untilClosed lead closing fault item stream =
      if next.current.kind = closing then .ok none next.next
      else if next.current.kind = .endOfText then fail (fun _ => fault) next
      else (item led >>= fun value => pure (some value)) next := by
  rw [untilClosed, bind_apply, ahead]
  dsimp only
  rw [bind_apply, accepts_apply]
  by_cases closed : next.current.kind = closing
  · simp only [closed, if_true]
    rfl
  · simp only [closed, if_false, Bool.false_eq_true]
    rw [bind_apply, sees_apply]
    by_cases atEnd : next.current.kind = .endOfText
    · simp only [atEnd, decide_true, if_true]
      rfl
    · simp only [atEnd, decide_false, if_false, Bool.false_eq_true]

/-- A fault while leading up to an item is the fault of the round. -/
theorem untilClosed_error {lead : Rule β} {closing : Kind} {fault : SyntaxError.Cause}
    {item : β → Rule α} {stream next : Stream} {failure : SyntaxError}
    (ahead : lead stream = .error failure next) :
    untilClosed lead closing fault item stream = .error failure next := by
  rw [untilClosed, bind_apply, ahead]

/-- One property of a block. -/
def property (source : List Char) : Rule (Text × Text) := do
  let key ← expectName
  let _ ← expect (.mark .colon)
  return (key.text, ← propertyValue source)

/-- One file of an import group. -/
def importedFile : Rule Text := do
  return (← expect .quotedText).text

/-- The properties of a block are read between parentheses. -/
theorem property?_eq (source : List Char) :
    property? source =
      untilClosed skipSpacing (.mark .rightParen) .unterminatedProperties
        fun _ => property source := by
  simp only [property?, untilClosed, property, bind_assoc, pure_bind]

/-- The files of an import group are read between parentheses. -/
theorem groupedImport?_eq :
    groupedImport? =
      untilClosed skipSpacing (.mark .rightParen) .unterminatedImports fun _ => importedFile := by
  simp only [groupedImport?, untilClosed, importedFile, bind_assoc, pure_bind]

/-- The types of a group are read between parentheses. -/
theorem groupedType?_eq :
    groupedType? = untilClosed docs (.mark .rightParen) .unterminatedTypes typeBody := rfl

/-- The members of a struct are read between braces. -/
theorem member?_eq :
    member? = untilClosed docs (.mark .rightBrace) .unterminatedStruct member := rfl

/-- The routes of a service are read between braces. -/
theorem route?_eq (source : List Char) (service : String) :
    route? source service =
      untilClosed docs (.mark .rightBrace) (.unterminatedService service) (route source) := rfl

/-- A choice between two actions goes on alike behind either. -/
theorem bind_ite (condition : Prop) [Decidable condition] (first second : Rule α)
    (behind : α → Rule β) :
    (if condition then first else second) >>= behind =
      if condition then first >>= behind else second >>= behind := by
  split <;> rfl

/-- The text of the next token if it is of some kind, and the empty text otherwise. -/
def textIf (kind : Kind) : Rule Text := do
  if ← sees kind then return (← advance).text else return []

theorem textIf_apply (kind : Kind) (stream : Stream) :
    textIf kind stream =
      if stream.current.kind = kind then .ok stream.current.text stream.next
      else .ok [] stream := by
  rw [textIf, bind_apply, sees_apply]
  by_cases found : stream.current.kind = kind
  · simp only [found, decide_true, if_true]
    rfl
  · simp only [found, decide_false, if_false, Bool.false_eq_true]
    rfl

/-- A member is read as its head, a tag, a comment on its line, and the end of the line. -/
theorem member_eq (docs : List Text) :
    member docs =
      current >>= fun first => memberHead >>= fun head =>
        textIf .rawText >>= fun tag => trailingComment first.start.line >>= fun comment =>
          lineEnd >>= fun _ =>
            pure { name := head.1, type := head.2.1, tag, comment, docs, embedded := head.2.2 } := by
  simp only [member, textIf, map_eq_pure_bind, bind_assoc, bind_ite, pure_bind]

/-- What stands behind the first token of a type, if a type can begin with that token. -/
def typeBehind (depth : Nat) (first : Token) : Option (Rule TypeExpr) :=
  match first.kind with
  | .mark .star => some do return .pointerTo (← typeWithin depth)
  | .mark .leftBracket => some do
    let size ← textIf .number
    let _ ← expect (.mark .rightBracket)
    return .arrayOf size (← typeWithin depth)
  | .keyword .map => some do
    let _ ← expect (.mark .leftBracket)
    let key ← typeWithin depth
    let _ ← expect (.mark .rightBracket)
    return .mapOf key (← typeWithin depth)
  | .keyword .interface => some do
    let _ ← expect (.mark .leftBrace)
    let _ ← expect (.mark .rightBrace)
    return .interface TypeExpr.emptyInterface
  | .identifier => some do return .ofName (← qualifiedName first.text)
  | _ => none

/-- A type is its first token and what stands behind it. -/
theorem typeWithin_succ_apply (depth : Nat) (stream : Stream) :
    typeWithin (depth + 1) stream =
      match typeBehind depth stream.current with
      | some behind => behind stream.next
      | none => fail .expectedType stream := by
  rw [typeWithin, bind_apply, current_apply, typeBehind]
  dsimp only
  cases stream.current.kind with
  | keyword word => cases word <;> rfl
  | mark mark =>
    cases mark with
    | leftBracket =>
      dsimp only
      rw [bind_apply, advance_apply]
      simp only [textIf, map_eq_pure_bind, bind_assoc, bind_ite]
    | _ => rfl
  | _ => rfl

/-- What a marker introduces above a route. -/
def noteBehind (source : List Char) : Marker → Rule RouteNote
  | .doc => do
    if ← sees .quotedText then
      return .doc { text := (← advance).text }
    else
      return .doc { properties := some (← propertyBlock source) }
  | .server => do return .server (← propertyBlock source)
  | .handler => do return .handler (← expectName).text

/-- Behind `@doc` stands a text or a property block. -/
theorem noteBehind_doc_apply (source : List Char) (stream : Stream) :
    noteBehind source .doc stream =
      if stream.current.kind = .quotedText then
        .ok (.doc { text := stream.current.text }) stream.next
      else
        (propertyBlock source >>= fun properties =>
          pure (.doc { properties := some properties }) : Rule RouteNote) stream := by
  rw [noteBehind, bind_apply, sees_apply]
  by_cases found : stream.current.kind = .quotedText
  · simp only [found, decide_true, if_true]
    rfl
  · simp only [found, decide_false, if_false, Bool.false_eq_true]

/-- A round over the annotations of a route: a marker, what it introduces, and the spacing
behind it, or nothing. -/
theorem routeNote?_apply (source : List Char) (stream : Stream) :
    routeNote? source stream =
      match stream.current.kind with
      | .marker found =>
        (do
          let _ ← advance
          let note ← noteBehind source found
          skipSpacing
          return some note : Rule (Option RouteNote)) stream
      | _ => .ok none stream := by
  rw [routeNote?, bind_apply, current_apply]
  dsimp only
  cases stream.current.kind with
  | marker found =>
    cases found with
    | doc | server | handler => simp only [noteBehind, bind_assoc, bind_ite, pure_bind]
  | _ => rfl

/-- A body that is there only if a rule says so. -/
def bodyIf (found : Rule Bool) : Rule (Option TypeExpr) := do
  if ← found then bodyType else return none

/-- A fault at an earlier token under a condition. -/
def refuseIf (condition : Prop) [Decidable condition] (token : Token)
    (cause : SyntaxError.Cause) : Rule Unit :=
  if condition then failAt token cause else pure ()

/-- The line of a route whose annotations have been read. -/
def routeLine (notes : RouteNotes) (docs : List Text) : Rule Route := do
  let methodToken ← expectName
  let method := methodToken.value.toLower
  refuseIf (httpMethods.contains method = false) methodToken (.unknownMethod methodToken.value)
  let path ← expect .path
  let request ← bodyIf (sees (.mark .leftParen))
  let response ← bodyIf (accepts (.keyword .returns))
  let comment ← trailingComment methodToken.start.line
  lineEnd
  refuseIf (notes.handlerName = []) methodToken (.missingHandler method path.value)
  return {
    handler := notes.handlerName, method := Text.ofString method
    path := Text.ofString path.value, request, response
    doc := notes.doc, docs, comment, server := notes.server }

/-- A route is read as its annotations and its line. -/
theorem route_eq (source : List Char) (docs : List Text) :
    route source docs =
      many (routeNote? source) >>= fun notes => routeLine (RouteNotes.ofList notes) docs := by
  simp only [route, routeLine, bodyIf, refuseIf, bind_assoc, bind_ite, pure_bind,
    Bool.not_eq_true']

/-- The declaration that a token of some kind begins. -/
def declarationOf (source : List Char) (docs : List Text) : Kind → Option (Rule Declaration)
  | .keyword .syntaxWord => some do return .version (← version)
  | .keyword .info => some do return .info (← info source)
  | .keyword .importWord => some do return .imports (← imports)
  | .keyword .type => some do return .types (← typeDecls docs)
  | .marker .server | .keyword .service => some do
    let read ← serviceGroup source
    return .group read.1 read.2
  | _ => none

/-- What a round over the declarations does behind the docs. -/
def declarationBelow (source : List Char) (docs : List Text) : Rule (Option Declaration) :=
  fun stream =>
    match declarationOf source docs stream.current.kind with
    | some declared => (declared >>= fun declaration => pure (some declaration)) stream
    | none =>
      if stream.current.kind = .endOfText then .ok none stream
      else fail .unexpectedDeclaration stream

/-- A declaration is read as its docs and what stands below them. -/
theorem declaration?_eq (source : List Char) :
    declaration? source = docs >>= declarationBelow source := by
  rw [declaration?]
  congr 1
  funext docs stream
  rw [bind_apply, current_apply, declarationBelow]
  unfold declarationOf
  dsimp only
  cases stream.current.kind with
  | keyword word => cases word <;> simp only [bind_assoc, pure_bind] <;> rfl
  | marker found => cases found <;> simp only [bind_assoc, pure_bind] <;> rfl
  | _ => rfl

end Rule

/-- A declaration is what is read between two streams below its docs, each kind by a rule of its
own. -/
def Declaration.ReadBetween (source : List Char) (docs : List Text) (stream next : Stream) :
    Declaration → Prop
  | .version value => Rule.version stream = .ok value next
  | .info block => Rule.info source stream = .ok block next
  | .imports files => Rule.imports stream = .ok files next
  | .types decls => Rule.typeDecls docs stream = .ok decls next
  | .group name routes => Rule.serviceGroup source stream = .ok (name, routes) next

namespace Rule

/-- What a round over the declarations answers is read behind the docs. -/
theorem exists_readBetween_of_declaration? {source : List Char} {stream next : Stream}
    {declaration : Declaration} (read : declaration? source stream = .ok (some declaration) next) :
    ∃ comments middle, docs stream = .ok comments middle ∧
      declaration.ReadBetween source comments middle next := by
  rw [declaration?_eq] at read
  obtain ⟨comments, middle, readDocs, readBelow⟩ := bind_eq_ok_iff.mp read
  refine ⟨comments, middle, readDocs, ?_⟩
  unfold declarationBelow at readBelow
  split at readBelow
  · next declared found =>
    obtain ⟨_, _, readDeclared, answered⟩ := bind_eq_ok_iff.mp readBelow
    cases answered
    unfold declarationOf at found
    split at found
    case h_7 => exact nomatch found
    all_goals
      cases found
      obtain ⟨_, _, readRule, answered⟩ := bind_eq_ok_iff.mp readDeclared
      cases answered
      exact readRule
  · split at readBelow <;> exact nomatch readBelow

end Rule

end ApiDescription
