import ApiDescription.Proofs.Grammar.Insertion
import ApiDescription.Proofs.Grammar.Shape

/-!
# Lines that take a comment

A comment behind the code of a line changes nothing but docs and comments, except where the
line is *bare*: single imports and aliases end their lines without looking for a comment, and
the other constructs of one line look for one only on the line they began on. `Bare` follows
the rules of the grammar down to such a line.
-/

namespace ApiDescription

/-- A member without what comments say about it. -/
def Member.withoutRemarks (member : Member) : Member := { member with docs := [], comment := [] }

/-- A type without what comments say about it and its members. -/
def TypeDecl.withoutRemarks : TypeDecl → TypeDecl
  | .struct name members _ => .struct name (members.map Member.withoutRemarks) []
  | .alias name target _ => .alias name target []

/-- A route without what comments say about it. -/
def Route.withoutRemarks (route : Route) : Route := { route with docs := [], comment := [] }

/-- A route group without what comments say about its routes. -/
def RouteGroup.withoutRemarks (group : RouteGroup) : RouteGroup :=
  { group with routes := group.routes.map Route.withoutRemarks }

/-- A declaration without what comments say about anything in it. -/
def Declaration.withoutRemarks : Declaration → Declaration
  | .types decls => .types (decls.map TypeDecl.withoutRemarks)
  | .group name routes => .group name routes.withoutRemarks
  | declaration => declaration

namespace Bare

open Rule

variable (feed : Token)

/-- A single import ends with the line feed. -/
def imports : Stream → Prop :=
  Then (expect (.keyword .importWord)) fun _ => Then (expect .quotedText) fun _ =>
    InFrontOf feed

/-- A version that began on an earlier line ends with the line feed. -/
def version : Stream → Prop :=
  Then (expect (.keyword .syntaxWord)) fun start => Then (expect (.mark .equals)) fun _ =>
    Then (expect .quotedText) fun _ stream =>
      InFrontOf feed stream ∧ start.start.line ≠ feed.start.line

/-- A member that began on an earlier line ends with the line feed. -/
def member : Stream → Prop :=
  Then current fun first => Then memberHead fun _ => Then (textIf .rawText) fun _ stream =>
    InFrontOf feed stream ∧ first.start.line ≠ feed.start.line

/-- One of the members of a struct ends a bare line. -/
def members : Stream → Prop := InRounds member? (Then docs fun _ => member feed)

/-- A struct has a bare line, or an alias ends with the line feed. -/
def typeBody : Stream → Prop :=
  Then expectName fun _ => Then (accepts (.keyword .struct)) fun isStruct =>
    if isStruct = true then Then (expect (.mark .leftBrace)) fun _ => members feed
    else Then (accepts (.mark .leftBrace)) fun isStruct =>
      if isStruct = true then members feed
      else Then (accepts (.mark .equals)) fun _ => Then typeExpr fun _ => InFrontOf feed

/-- One of the types declared together has a bare line. -/
def typeDecls : Stream → Prop :=
  Then (expect (.keyword .type)) fun _ => Then (accepts (.mark .leftParen)) fun isGroup =>
    if isGroup = true then InRounds groupedType? (Then docs fun _ => typeBody feed)
    else typeBody feed

/-- A declaration that begins with a token of some kind has a bare line. Info blocks and services
have none. -/
def declarationOf : Kind → Stream → Prop
  | .keyword .syntaxWord => version feed
  | .keyword .importWord => imports feed
  | .keyword .type => typeDecls feed
  | _ => fun _ => False

/-- A declaration has a bare line that ends with the line feed. -/
def declaration (stream : Stream) : Prop := declarationOf feed stream.current.kind stream

/-- A description has a bare line that ends with the line feed. -/
def line (source : List Char) : Stream → Prop :=
  InRounds (declaration? source) (Then docs fun _ => declaration feed)

end Bare

/-- A stream whose next token stands on a line. -/
structure OnLine (line : Nat) (stream : Stream) : Prop where
  chain : stream.ahead.IsChain Token.GoesOn
  first : ∀ token ∈ stream.ahead.head?, token.start.line = line

/-- Behind a token that is written without line feeds the line goes on. -/
theorem OnLine.next {line : Nat} {stream : Stream} (onLine : OnLine line stream)
    (isInline : stream.current.kind.isInline = true) : OnLine line stream.next := by
  obtain ⟨chain, first⟩ := onLine
  cases tokens : stream.ahead with
  | nil =>
    rw [Stream.next, tokens]
    exact ⟨chain, first⟩
  | cons token rest =>
    rw [Stream.current_of_cons tokens] at isInline
    rw [tokens] at chain first
    have rest := Stream.ahead_next tokens
    refine ⟨by rw [rest]; exact chain.tail, ?_⟩
    rw [rest]
    intro second isSecond
    cases chain with
    | singleton => cases isSecond
    | cons_cons goesOn _ =>
      obtain rfl := Option.some.inj isSecond
      exact (goesOn isInline).trans (first token rfl)

/-- A rule that stays on the line it starts on. -/
def KeepsLine {α : Type} (rule : Rule α) : Prop :=
  ∀ line stream value next, OnLine line stream → rule stream = .ok value next → OnLine line next

namespace KeepsLine

variable {α β : Type}

theorem pure (value : α) : KeepsLine (pure value) := by
  intro line stream answer next onLine read
  cases read
  exact onLine

theorem fail (cause : Token → SyntaxError.Cause) : KeepsLine (Rule.fail cause : Rule α) := by
  intro line stream value next onLine read
  cases read

theorem bind {first : Rule α} {second : α → Rule β} (earlier : KeepsLine first)
    (later : ∀ value, KeepsLine (second value)) : KeepsLine (first >>= second) := by
  intro line stream value next onLine read
  obtain ⟨found, middle, readFirst, readSecond⟩ := bind_eq_ok_iff.mp read
  exact later found _ _ _ _ (earlier _ _ _ _ onLine readFirst) readSecond

theorem ite {condition : Prop} [Decidable condition] {first second : Rule α}
    (yes : KeepsLine first) (no : KeepsLine second) :
    KeepsLine (if condition then first else second) := by
  split
  · exact yes
  · exact no

/-- A rule that takes the next token if it is of some class without line feeds. -/
theorem take {rule otherwise : Rule α} (p : Token → Prop) [DecidablePred p] (answer : Token → α)
    (apply : ∀ stream, rule stream =
      if p stream.current then .ok (answer stream.current) stream.next else otherwise stream)
    (isInline : ∀ token, p token → token.kind.isInline = true) (without : KeepsLine otherwise) :
    KeepsLine rule := by
  intro line stream value next onLine read
  rw [apply] at read
  split at read
  · next holds =>
    cases read
    exact onLine.next (isInline _ holds)
  · exact without _ _ _ _ onLine read

theorem sees (kind : Kind) : KeepsLine (Rule.sees kind) := by
  intro line stream value next onLine read
  cases read
  exact onLine

theorem accepts {kind : Kind} (isInline : kind.isInline = true) : KeepsLine (Rule.accepts kind) :=
  take (·.kind = kind) (fun _ => true) (Rule.accepts_apply kind)
    (fun _ found => found ▸ isInline) (.pure false)

theorem textIf {kind : Kind} (isInline : kind.isInline = true) : KeepsLine (Rule.textIf kind) :=
  take (·.kind = kind) Token.text (Rule.textIf_apply kind) (fun _ found => found ▸ isInline)
    (.pure [])

theorem expect {kind : Kind} (isInline : kind.isInline = true) : KeepsLine (Rule.expect kind) :=
  take (·.kind = kind) id (Rule.expect_apply kind) (fun _ found => found ▸ isInline) (.fail _)

theorem expectName : KeepsLine Rule.expectName :=
  take (fun token => token.isName = true) id Rule.expectName_apply
    (fun token isName => by
      unfold Token.isName at isName
      split at isName
      · next kind => rw [kind]; rfl
      · next kind => rw [kind]; rfl
      · cases isName)
    (.fail _)

theorem qualifiedName (first : Text) : KeepsLine (Rule.qualifiedName first) :=
  .bind (.accepts rfl) fun _ => .ite (.bind (.expect rfl) fun _ => .pure _) (.pure _)

/-- Types are written on one line. -/
theorem typeWithin (depth : Nat) : KeepsLine (Rule.typeWithin depth) := by
  induction depth with
  | zero => exact .fail _
  | succ depth inner =>
    have behind {first : Token} {rule : Rule TypeExpr}
        (found : Rule.typeBehind depth first = some rule) :
        first.kind.isInline = true ∧ KeepsLine rule := by
      unfold Rule.typeBehind at found
      split at found
      case h_1 kind =>
        cases found
        exact ⟨by rw [kind]; rfl, .bind inner fun _ => .pure _⟩
      case h_2 kind =>
        cases found
        exact ⟨by rw [kind]; rfl, .bind (.textIf rfl) fun _ => .bind (.expect rfl) fun _ =>
          .bind inner fun _ => .pure _⟩
      case h_3 kind =>
        cases found
        exact ⟨by rw [kind]; rfl, .bind (.expect rfl) fun _ => .bind inner fun _ =>
          .bind (.expect rfl) fun _ => .bind inner fun _ => .pure _⟩
      case h_4 kind =>
        cases found
        exact ⟨by rw [kind]; rfl, .bind (.expect rfl) fun _ => .bind (.expect rfl) fun _ =>
          .pure _⟩
      case h_5 kind =>
        cases found
        exact ⟨by rw [kind]; rfl, .bind (.qualifiedName _) fun _ => .pure _⟩
      case h_6 => cases found
    intro line stream value next onLine read
    rw [Rule.typeWithin_succ_apply] at read
    cases found : Rule.typeBehind depth stream.current with
    | none =>
      rw [found] at read
      cases read
    | some rule =>
      rw [found] at read
      obtain ⟨isInline, keeps⟩ := behind found
      exact keeps _ _ _ _ (onLine.next isInline) read

theorem bodyIf {found : Rule Bool} (keeps : KeepsLine found) : KeepsLine (Rule.bodyIf found) := by
  have type : KeepsLine Rule.typeExpr := fun _ stream _ _ onLine read =>
    typeWithin _ _ stream _ _ onLine read
  exact .bind keeps fun _ => .ite
    (.bind (.expect rfl) fun _ => .bind (.accepts rfl) fun _ => .ite (.pure _)
      (.bind type fun _ => .bind (.expect rfl) fun _ => .pure _))
    (.pure _)

theorem refuseIf {condition : Prop} [Decidable condition] (token : Token)
    (cause : SyntaxError.Cause) : KeepsLine (Rule.refuseIf condition token cause) := by
  refine .ite ?_ (.pure _)
  intro line stream value next onLine read
  cases read

end KeepsLine

namespace Insertion

variable {insertion : Insertion} {α β γ : Type} {view : α → γ}

namespace Ignores

/-- What is not refused in the text is not refused in the edited text. -/
theorem refuseIf {condition other : Prop} [Decidable condition] [Decidable other]
    (token token' : Token) (cause cause' : SyntaxError.Cause) (same : other ↔ condition) :
    insertion.Ignores id (Rule.refuseIf condition token cause)
      (Rule.refuseIf other token' cause') :=
  .ite same (fun _ _ _ _ _ read => nomatch read) (.pure rfl)

end Ignores

namespace Follows

theorem imports :
    insertion.Follows id (Bare.imports insertion.feed) Rule.imports Rule.imports := by
  unfold Rule.imports
  rw [Rule.groupedImport?_eq]
  have group : insertion.Ignores id
      (ApiDescription.many (Rule.untilClosed Rule.skipSpacing (.mark .rightParen)
        .unterminatedImports fun _ => Rule.importedFile))
      (ApiDescription.many (Rule.untilClosed Rule.skipSpacing (.mark .rightParen)
        .unterminatedImports fun _ => Rule.importedFile)) :=
    .of_mirrors (insertion.reading.items (fun _ => rfl) Rule.consumes_importedFile
      Rule.consumes_importedFile insertion.reading.importedFile)
      fun _ _ same => (eq_of_forall₂ same).symm
  refine .bind (.expect rfl) fun _ _ _ => Follows.congr
    (.bind (.accepts rfl) fun _ _ same => .ite (question same) group
      (.bind (.expect rfl) fun _ _ face => lineEnd.answer fun _ _ _ => by
        rw [text_of_face face])) ?_
  intro stream edited value next related read
  by_cases opens : stream.current.kind = .mark .leftParen
  · have accepted : Rule.accepts (.mark .leftParen) stream = .ok true stream.next := by
      rw [Rule.accepts_apply, if_pos opens]
    rw [then_iff accepted]
    refine iff_of_false ?_ not_false
    rintro ⟨_, _, readFile, -⟩
    rw [Rule.expect_apply, if_neg (by simp [opens])] at readFile
    cases readFile
  · have accepted : Rule.accepts (.mark .leftParen) stream = .ok false stream := by
      rw [Rule.accepts_apply, if_neg opens]
    rw [then_iff accepted]
    rfl

theorem version :
    insertion.Follows id (Bare.version insertion.feed) Rule.version Rule.version := by
  refine .bind (.expect rfl) fun start start' face =>
    .bind (.expect rfl) fun _ _ _ =>
      .bind (.expect rfl) fun _ _ file => ?_
  have sameLine : start'.start.line = start.start.line :=
    congrArg (fun face : Kind × String × Nat => face.2.2) face
  rw [sameLine, text_of_face file]
  exact .lineClose fun _ _ => Ignores.pure rfl

theorem member (docs docs' : List Text) :
    insertion.Follows Member.withoutRemarks (Bare.member insertion.feed) (Rule.member docs)
      (Rule.member docs') := by
  rw [Rule.member_eq, Rule.member_eq]
  refine .bind .current fun first first' sameLine =>
    .bind (.of_eq insertion.reading.memberHead) fun head head' sameHead =>
    .bind (.textIf rfl) fun tag tag' sameTag => ?_
  rw [show first'.start.line = first.start.line from sameLine, show head' = head from sameHead,
    show tag' = tag from sameTag]
  exact .lineClose fun _ _ => Ignores.pure rfl

/-- No name begins with a bracket. -/
theorem not_then_expectName {stream : Stream} {holds : Token → Stream → Prop} {mark : Mark}
    (isMark : stream.current.kind = .mark mark) : ¬Then Rule.expectName holds stream := by
  rintro ⟨_, _, read, -⟩
  rw [Rule.expectName_apply, if_neg (by simp [Token.isName, isMark])] at read
  cases read

theorem members :
    insertion.Follows (List.map Member.withoutRemarks) (Bare.members insertion.feed) Rule.members
      Rule.members := by
  unfold Rule.members Bare.members
  have shrinks := Rule.shrinks_member?
  rw [Rule.member?_eq] at shrinks ⊢
  apply Follows.many shrinks shrinks
  apply Follows.untilClosed rfl ?_ .docs member
  rintro stream isClosing ⟨first, _, readFirst, head, _, readHead, -⟩
  cases readFirst
  obtain ⟨isStar, _, readStar, readHead⟩ := bind_eq_ok_iff.mp readHead
  cases readStar
  rw [if_neg (by simp [isClosing])] at readHead
  obtain ⟨name, middle, readName, -⟩ := bind_eq_ok_iff.mp readHead
  have noName : ¬Then Rule.expectName (fun _ _ => True) stream := not_then_expectName isClosing
  exact noName ⟨name, middle, readName, trivial⟩

theorem typeBody (docs docs' : List Text) :
    insertion.Follows TypeDecl.withoutRemarks (Bare.typeBody insertion.feed) (Rule.typeBody docs)
      (Rule.typeBody docs') := by
  have struct (name : Text) : insertion.Follows TypeDecl.withoutRemarks
      (Bare.members insertion.feed)
      (Rule.members >>= fun members => pure (.struct name members docs))
      (Rule.members >>= fun members => pure (.struct name members docs')) :=
    members.answer fun _ _ same => congrArg (TypeDecl.struct name · []) same
  have type : insertion.Ignores id Rule.typeExpr Rule.typeExpr :=
    .of_eq (insertion.reading.typeExpr insertion.reading.typeWithin)
  refine .bind .expectName fun name name' face => ?_
  rw [text_of_face face]
  exact .bind (.accepts rfl) fun _ _ same => .ite (question same)
    (.bind (.expect rfl) fun _ _ _ => struct name.text)
    (.bind (.accepts rfl) fun _ _ same => .ite (question same)
      (struct name.text)
      (.bind (.accepts rfl) fun _ _ _ => .bind type fun _ _ same =>
        lineEnd.answer fun _ _ _ => congrArg (TypeDecl.alias name.text · []) (congrArg some same)))

theorem typeDecls (docs docs' : List Text) :
    insertion.Follows (List.map TypeDecl.withoutRemarks) (Bare.typeDecls insertion.feed)
      (Rule.typeDecls docs) (Rule.typeDecls docs') := by
  have shrinks := Rule.shrinks_groupedType?
  unfold Rule.typeDecls Bare.typeDecls
  rw [Rule.groupedType?_eq] at shrinks ⊢
  exact .bind (.expect rfl) fun _ _ _ =>
    .bind (.accepts rfl) fun _ _ same => .ite (question same)
      (.many shrinks shrinks <|
        .untilClosed rfl (fun _ => not_then_expectName) .docs typeBody)
      ((typeBody docs docs').answer fun _ _ same => congrArg (fun decl => [decl]) same)

end Follows

namespace Ignores

/-- A route is written on one line, so that the comment stands on the line it began on. -/
theorem routeLine (notes : RouteNotes) (docs docs' : List Text) :
    insertion.Ignores Route.withoutRemarks (Rule.routeLine notes docs)
      (Rule.routeLine notes docs') := by
  have closes : insertion.Follows Route.withoutRemarks
      (Then Rule.expectName fun methodToken =>
        Then (Rule.refuseIf (httpMethods.contains methodToken.value.toLower = false) methodToken
          (.unknownMethod methodToken.value)) fun _ =>
        Then (Rule.expect .path) fun _ => Then (Rule.bodyIf (Rule.sees (.mark .leftParen))) fun _ =>
        Then (Rule.bodyIf (Rule.accepts (.keyword .returns))) fun _ stream =>
          InFrontOf insertion.feed stream ∧ methodToken.start.line ≠ insertion.feed.start.line)
      (Rule.routeLine notes docs) (Rule.routeLine notes docs') := by
    refine .bind .expectName fun methodToken methodToken' face => ?_
    have sameValue : methodToken'.value = methodToken.value :=
      congrArg (fun face : Kind × String × Nat => face.2.1) face
    have sameLine : methodToken'.start.line = methodToken.start.line :=
      congrArg (fun face : Kind × String × Nat => face.2.2) face
    dsimp only
    rw [sameValue, sameLine]
    refine .bind (.refuseIf _ _ _ _ Iff.rfl) fun _ _ _ =>
      .bind (.expect rfl) fun path path' pathFace => ?_
    have samePath : path'.value = path.value :=
      congrArg (fun face : Kind × String × Nat => face.2.1) pathFace
    rw [samePath]
    have body {found : Rule Bool} (same : insertion.reading.Inside Eq found found) :
        insertion.Ignores id (Rule.bodyIf found) (Rule.bodyIf found) :=
      .of_eq (insertion.reading.bodyIf same)
    refine .bind (body (insertion.reading.sees rfl)) fun request request' sameRequest =>
      .bind (body (insertion.reading.accepts rfl)) fun response response' sameResponse => ?_
    rw [show request' = request from sameRequest, show response' = response from sameResponse]
    exact .lineClose fun _ _ => .bind (.refuseIf _ _ _ _ Iff.rfl) fun _ _ _ => .pure rfl
  apply closes.congr
  intro stream edited value next related _
  refine iff_of_false not_false ?_
  rintro ⟨methodToken, _, readName, _, _, readRefused, _, _, readPath, _, _, readRequest, _, _,
    readResponse, atFeed, otherLine⟩
  have start : OnLine stream.current.start.line stream := by
    refine ⟨related.chain, fun token isFirst => ?_⟩
    rw [Stream.current, List.headD_eq_head?_getD, Option.mem_def.mp isFirst]
    rfl
  have sameToken : methodToken = stream.current := by
    rw [Rule.expectName_apply] at readName
    split at readName <;> cases readName
    rfl
  have afterName := KeepsLine.expectName _ _ _ _ start readName
  have afterRefused := KeepsLine.refuseIf _ _ _ _ _ _ afterName readRefused
  have afterPath := KeepsLine.expect rfl _ _ _ _ afterRefused readPath
  have afterRequest := KeepsLine.bodyIf (.sees _) _ _ _ _ afterPath readRequest
  have afterResponse := KeepsLine.bodyIf (.accepts rfl) _ _ _ _ afterRequest readResponse
  exact otherLine (sameToken ▸ (afterResponse.first _ atFeed).symm)

section Declarations

variable {source other : List Char} (values : insertion.KeepsValues source other)

include values

theorem route (docs docs' : List Text) :
    insertion.Ignores Route.withoutRemarks (Rule.route source docs) (Rule.route other docs') := by
  have notes : insertion.Ignores id (ApiDescription.many (Rule.routeNote? source))
      (ApiDescription.many (Rule.routeNote? other)) :=
    .of_mirrors (.many Related.bothEnded (Rule.shrinks_routeNote? _) (Rule.shrinks_routeNote? _)
      ((simulation values).routeNote? spaces).round) fun _ _ same => (eq_of_forall₂ same).symm
  rw [Rule.route_eq, Rule.route_eq]
  refine .bind notes fun notes notes' sameNotes => ?_
  rw [show notes' = notes from sameNotes]
  exact routeLine _ docs docs'

theorem serviceGroup :
    insertion.Ignores (fun read => (read.1, read.2.withoutRemarks)) (Rule.serviceGroup source)
      (Rule.serviceGroup other) := by
  have server : insertion.Ignores id (Rule.groupServer source) (Rule.groupServer other) :=
    .of_eq ((simulation values).groupServer spaces)
  refine .bind server fun server server' sameServer =>
    .bind (.expect rfl) fun _ _ _ => .bind .expectName fun name name' face =>
      .bind (.expect rfl) fun _ _ _ => ?_
  rw [Rule.route?_eq, Rule.route?_eq, text_of_face face, show server' = server from sameServer]
  refine .bind (many_untilClosed rfl Rule.forward_docs (Rule.consumes_route source)
    (Rule.consumes_route other) .docs (route values))
    fun routes routes' sameRoutes => .pure ?_
  simp [RouteGroup.withoutRemarks, sameRoutes]

end Declarations

end Ignores

namespace Follows

section Declarations

variable {source other : List Char} (values : insertion.KeepsValues source other)

include values

/-- A declaration fails where its line is bare. -/
theorem declarationOf (docs docs' : List Text) (kind : Kind) :
    Option.Rel (insertion.Follows Declaration.withoutRemarks
        (Bare.declarationOf insertion.feed kind))
      (Rule.declarationOf source docs kind) (Rule.declarationOf other docs' kind) := by
  have group : insertion.Ignores Declaration.withoutRemarks
      (Rule.serviceGroup source >>= fun read => pure (.group read.1 read.2))
      (Rule.serviceGroup other >>= fun read => pure (.group read.1 read.2)) := by
    refine .bind (.serviceGroup values) fun read read' same => .pure ?_
    rw [Prod.mk.injEq] at same
    simp only [Declaration.withoutRemarks, same.1, same.2]
  unfold Rule.declarationOf Bare.declarationOf
  cases kind with
  | keyword word =>
    cases word with
    | syntaxWord => exact .some (version.answer fun _ _ same => congrArg Declaration.version same)
    | info => exact .some <|
        Ignores.bind (.of_eq (simulation values).info) fun _ _ same =>
          .pure (congrArg Declaration.info same)
    | importWord => exact .some (imports.answer fun _ _ same => congrArg Declaration.imports same)
    | type => exact .some <|
        (typeDecls docs docs').answer fun _ _ same => congrArg Declaration.types same
    | service => exact .some group
    | _ => exact .none
  | marker found =>
    cases found with
    | server => exact .some group
    | _ => exact .none
  | _ => exact .none

/-- Below its docs a declaration fails where its line is bare. -/
theorem declarationBelow (docs docs' : List Text) :
    insertion.Follows (Option.map Declaration.withoutRemarks) (Bare.declaration insertion.feed)
      (Rule.declarationBelow source docs) (Rule.declarationBelow other docs') := by
  intro stream edited value next related read
  unfold Rule.declarationBelow at read ⊢
  unfold Bare.declaration
  rcases related.cases with ⟨-, face, -⟩ | ⟨-, atFeed, -⟩
  · rw [kind_of_face face]
    have same := declarationOf values docs docs' stream.current.kind
    generalize bareRule : Bare.declarationOf insertion.feed stream.current.kind = bare at same ⊢
    generalize Rule.declarationOf source docs stream.current.kind = rule at same read
    generalize Rule.declarationOf other docs' stream.current.kind = otherRule at same ⊢
    cases same with
    | @some rule otherRule same =>
      have answered : insertion.Follows (Option.map Declaration.withoutRemarks) bare
          (rule >>= fun declaration => pure (some declaration))
          (otherRule >>= fun declaration => pure (some declaration)) :=
        same.answer fun _ _ sameItem => congrArg some sameItem
      exact answered _ _ _ _ related read
    | none =>
      dsimp only at read ⊢
      split at read
      · next atEnd =>
        cases read
        rw [if_pos atEnd]
        refine .inr ⟨?_, none, edited, rfl, rfl, related⟩
        rw [← bareRule, atEnd]
        exact not_false
      · cases read
  · have nothing : Rule.declarationOf source docs stream.current.kind = none := by
      rw [atFeed, insertion.isFeed]
      rfl
    have goesOn : stream.current.kind ≠ .endOfText := by simp [atFeed, insertion.isFeed]
    rw [nothing] at read
    simp only [if_neg goesOn] at read
    cases read

/-- The declarations of a text fail where one of their lines is bare. -/
theorem declarations :
    insertion.Follows (List.map Declaration.withoutRemarks) (Bare.line insertion.feed source)
      (ApiDescription.many (Rule.declaration? source))
      (ApiDescription.many (Rule.declaration? other)) := by
  apply many (Rule.shrinks_declaration? source) (Rule.shrinks_declaration? other)
  rw [Rule.declaration?_eq, Rule.declaration?_eq]
  exact .bind .docs fun docs docs' _ => declarationBelow values docs docs'

end Declarations

end Follows

end Insertion

end ApiDescription
