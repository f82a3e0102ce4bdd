import ApiDescription.Proofs.Document.Joining
import ApiDescription.Proofs.Grammar.Parallel
import ApiDescription.Proofs.Token.CommentLines

/-!
# Descriptions with a comment on lines of its own

A comment where a line starts is skipped there, or it belongs to the docs of what stands below it.
The text with the comment is read in parallel with the text without it. The two come apart in front
of the comment and are together again behind it, and nothing but docs tells them apart.
-/

namespace ApiDescription

/-- Leading items of a class that end in a list are the same with more items behind the list. -/
theorem run_append_of_ends {α : Type} {p : α → Bool} {items : List α}
    (ends : items.dropWhile p ≠ []) (more : List α) :
    (items ++ more).takeWhile p = items.takeWhile p ∧
      (items ++ more).dropWhile p = items.dropWhile p ++ more := by
  have shorter : (items.takeWhile p).length ≠ items.length := by
    have whole := congrArg List.length (List.takeWhile_append_dropWhile (p := p) (l := items))
    have left := List.length_pos_iff.mpr ends
    rw [List.length_append] at whole
    omega
  rw [List.takeWhile_append, if_neg shorter, List.dropWhile_append, if_neg (by simpa using ends)]
  exact ⟨rfl, rfl⟩

namespace CommentLine

variable (line : CommentLine)

/-- The number of a line in the text with the comment, which pushes the lines below it down. -/
def lineBehind (number : Nat) : Nat :=
  if number ≤ line.head.count '\n' then number
  else number + (line.comment ++ ['\n']).count '\n'

/-- What is ahead in the two texts in front of the same token, above the comment or below it. -/
inductive Ahead : List Token → List Token → Prop where
  | inFront {rest : List Token} (isSuffix : rest <:+ line.before) (goesOn : rest ≠ []) :
    Ahead (rest ++ line.later.map line.moved.token)
      (rest ++ line.remark :: line.feed :: line.later.map line.further.token)
  | below {rest : List Token} (isSuffix : rest <:+ line.later) :
    Ahead (rest.map line.moved.token) (rest.map line.further.token)

/-- What is ahead in the two texts in front of the same token, or in one of them in front of the
comment and in the other behind it. -/
inductive AheadOrApart : List Token → List Token → Prop where
  | ahead {rest other : List Token} (ahead : line.Ahead rest other) : AheadOrApart rest other
  | apart : AheadOrApart (line.later.map line.moved.token)
      (line.remark :: line.feed :: line.later.map line.further.token)

/-- Streams over the two texts. -/
structure Streams (related : List Token → List Token → Prop) (first second : Stream) : Prop where
  finish : first.finish = line.moved.token line.finish
  otherFinish : second.finish = line.further.token line.finish
  ahead : related first.ahead second.ahead

variable {line}

/-- No two lines become one. -/
theorem lineBehind_injective : Function.Injective line.lineBehind := by
  intro first second same
  unfold lineBehind at same
  split at same <;> split at same <;> omega

/-- Above the comment a token stands where it stood. -/
theorem alike_inFront {token : Token} (isBefore : token ∈ line.before) :
    token.Alike line.lineBehind token :=
  ⟨rfl, rfl, (if_pos (line.above token isBefore)).symm⟩

/-- Below the comment a token is as far away from the comment as it was from its place. -/
theorem alike_below {token : Token} (isLater : token ∈ line.later ++ [line.finish]) :
    (line.moved.token token).Alike line.lineBehind (line.further.token token) := by
  refine ⟨rfl, rfl, ?_⟩
  have isBelow := line.below token isLater
  have notAbove : ¬token.start.line + line.head.count '\n' ≤ line.head.count '\n' := by omega
  have lines : line.further.lines =
      line.head.count '\n' + (line.comment ++ ['\n']).count '\n' := List.count_append
  change token.start.line + line.further.lines =
    line.lineBehind (token.start.line + line.head.count '\n')
  rw [lineBehind, if_neg notAbove, lines]
  omega

/-- Above the comment the last token ends a line. -/
theorem getLast?_of_suffix {rest : List Token} (isSuffix : rest <:+ line.before) :
    ∀ token ∈ rest.getLast?, token.kind = .newline := by
  obtain ⟨front, split⟩ := isSuffix
  intro token isLast
  apply line.endsLine
  rw [← split, List.getLast?_append, Option.mem_def.mp isLast]
  rfl

/-- In front of the same token there is the same token, and behind it the texts may come apart only
if it is a line feed. -/
theorem Ahead.tail {token other : Token} {rest others : List Token}
    (ahead : line.Ahead (token :: rest) (other :: others)) :
    token.Alike line.lineBehind other ∧ (token.kind ≠ .newline → line.Ahead rest others) ∧
      line.AheadOrApart rest others := by
  generalize first : token :: rest = tokens at ahead
  generalize second : other :: others = edited at ahead
  cases ahead with
  | @inFront before isSuffix goesOn =>
    cases before with
    | nil => exact absurd rfl goesOn
    | cons head before =>
      obtain ⟨rfl, rfl⟩ := List.cons.inj first
      obtain ⟨rfl, rfl⟩ := List.cons.inj second
      have behind : before <:+ line.before := (List.suffix_cons _ _).trans isSuffix
      refine ⟨alike_inFront (isSuffix.subset List.mem_cons_self), ?_, ?_⟩
      · intro noFeed
        refine .inFront behind fun nothing => noFeed ?_
        exact getLast?_of_suffix isSuffix _ (by simp [nothing])
      · rcases eq_or_ne before [] with rfl | goesOn
        · exact .apart
        · exact .ahead (.inFront behind goesOn)
  | @below later isSuffix =>
    cases later with
    | nil => cases first
    | cons head later =>
      obtain ⟨rfl, rfl⟩ := List.cons.inj first
      obtain ⟨rfl, rfl⟩ := List.cons.inj second
      have behind : line.Ahead (later.map line.moved.token) (later.map line.further.token) :=
        .below ((List.suffix_cons _ _).trans isSuffix)
      have isLater := List.mem_append_left [line.finish] (isSuffix.subset List.mem_cons_self)
      exact ⟨alike_below isLater, fun _ => behind, .ahead behind⟩

/-- Both texts are read to the end or neither is. -/
theorem Ahead.eq_nil_iff {rest others : List Token} (ahead : line.Ahead rest others) :
    rest = [] ↔ others = [] := by
  cases ahead with
  | inFront _ goesOn => simp [goesOn]
  | below _ => simp

/-- Below the comment the tokens of a class are the same in both texts. -/
theorem run_below {rest : List Token} (isSuffix : rest <:+ line.later) {p : Token → Bool}
    (onKind : ∀ {token other : Token}, other.kind = token.kind → p other = p token) :
    line.Ahead ((rest.map line.moved.token).dropWhile p)
        ((rest.map line.further.token).dropWhile p) ∧
      ∃ run ⊆ line.later, (rest.map line.moved.token).takeWhile p = run.map line.moved.token ∧
        (rest.map line.further.token).takeWhile p = run.map line.further.token := by
  have moved : p ∘ line.moved.token = p := funext fun token => onKind rfl
  have further : p ∘ line.further.token = p := funext fun token => onKind rfl
  rw [List.dropWhile_map, List.dropWhile_map, List.takeWhile_map, List.takeWhile_map, moved,
    further]
  refine ⟨.below ((List.dropWhile_suffix p).trans isSuffix), rest.takeWhile p, ?_, rfl, rfl⟩
  exact fun token inRun => isSuffix.subset (List.takeWhile_subset p inRun)

/-- Of the same class of tokens without line feeds there are the same ahead in both texts. -/
theorem Ahead.run {rest others : List Token} (ahead : line.Ahead rest others) {p : Token → Bool}
    (onKind : ∀ {token other : Token}, other.kind = token.kind → p other = p token)
    (noFeed : ∀ token : Token, token.kind = .newline → p token = false) :
    line.Ahead (rest.dropWhile p) (others.dropWhile p) ∧
      ((∃ run ⊆ line.before, rest.takeWhile p = run ∧ others.takeWhile p = run) ∨
        ∃ run ⊆ line.later, rest.takeWhile p = run.map line.moved.token ∧
          others.takeWhile p = run.map line.further.token) := by
  cases ahead with
  | @inFront before isSuffix goesOn =>
    -- The line feed that ends the tokens above the comment is none of them.
    have ends : before.dropWhile p ≠ [] := by
      intro nothing
      have isLast := List.getLast?_eq_some_getLast goesOn
      have found := List.dropWhile_eq_nil_iff.mp nothing _ (List.mem_of_getLast? isLast)
      rw [noFeed _ (getLast?_of_suffix isSuffix _ isLast)] at found
      cases found
    have run := run_append_of_ends ends
    rw [(run _).1, (run _).1, (run _).2, (run _).2]
    refine ⟨.inFront ((List.dropWhile_suffix p).trans isSuffix) ends,
      .inl ⟨before.takeWhile p, ?_, rfl, rfl⟩⟩
    exact fun token inRun => isSuffix.subset (List.takeWhile_subset p inRun)
  | below isSuffix =>
    obtain ⟨behind, run⟩ := run_below isSuffix onKind
    exact ⟨behind, .inr run⟩

/-- Behind line feeds and comments the texts are in front of the same token. -/
theorem AheadOrApart.spacing {rest others : List Token} (related : line.AheadOrApart rest others) :
    line.Ahead (rest.dropWhile Token.isSpacing) (others.dropWhile Token.isSpacing) := by
  have below {rest : List Token} (isSuffix : rest <:+ line.later) :=
    (run_below isSuffix (p := Token.isSpacing)
      fun same => by simp only [Token.isSpacing, same]).1
  have comment (more : List Token) :
      (line.remark :: line.feed :: more).dropWhile Token.isSpacing =
        more.dropWhile Token.isSpacing := by
    simp [Token.isSpacing, line.isRemark, line.isFeed]
  cases related with
  | apart =>
    rw [comment]
    exact below List.suffix_rfl
  | ahead ahead =>
    cases ahead with
    | below isSuffix => exact below isSuffix
    | @inFront before isSuffix _ =>
      rw [List.dropWhile_append, List.dropWhile_append]
      split
      · rw [comment]
        exact below List.suffix_rfl
      · next goesOn =>
        refine .inFront ((List.dropWhile_suffix _).trans isSuffix) fun nothing => ?_
        simp [nothing] at goesOn

/-- The texts are read to the end alike. -/
theorem Streams.ended {related : List Token → List Token → Prop} {first second : Stream}
    (streams : line.Streams related first second) : first.Ended ∧ second.Ended := by
  rw [Stream.Ended, Stream.Ended, streams.finish, streams.otherFinish]
  exact ⟨line.ends, line.ends⟩

/-- In front of the same token, or at the end of both texts. -/
theorem Streams.cases {first second : Stream} (streams : line.Streams line.Ahead first second) :
    (∃ token rest other others, first.ahead = token :: rest ∧ second.ahead = other :: others) ∨
      first.ahead = [] ∧ second.ahead = [] := by
  have together := streams.ahead.eq_nil_iff
  cases ahead : first.ahead with
  | nil => exact .inr ⟨rfl, together.mp ahead⟩
  | cons token rest =>
    cases otherAhead : second.ahead with
    | nil => simp [ahead, otherAhead] at together
    | cons other others => exact .inl ⟨token, rest, other, others, rfl, rfl⟩

/-- Streams in front of the same token. -/
theorem Streams.current {first second : Stream} (streams : line.Streams line.Ahead first second) :
    first.current.Alike line.lineBehind second.current ∧
      (first.current.kind ≠ .newline → line.Streams line.Ahead first.next second.next) ∧
      line.Streams line.AheadOrApart first.next second.next := by
  have behind {related : List Token → List Token → Prop}
      (ahead : related first.next.ahead second.next.ahead) :
      line.Streams related first.next second.next :=
    ⟨first.finish_next.trans streams.finish, second.finish_next.trans streams.otherFinish, ahead⟩
  rcases streams.cases with ⟨token, rest, other, others, ahead, otherAhead⟩ | ⟨ahead, otherAhead⟩
  · have related := streams.ahead
    rw [ahead, otherAhead] at related
    obtain ⟨alike, next, mayPart⟩ := related.tail
    rw [Stream.current_of_cons ahead, Stream.current_of_cons otherAhead]
    rw [← Stream.ahead_next ahead, ← Stream.ahead_next otherAhead] at next mayPart
    exact ⟨alike, fun noFeed => behind (next noFeed), behind mayPart⟩
  · have next : first.next = first := by rw [Stream.next, ahead]
    have otherNext : second.next = second := by rw [Stream.next, otherAhead]
    rw [Stream.current_of_nil ahead, Stream.current_of_nil otherAhead, next, otherNext,
      streams.finish, streams.otherFinish]
    exact ⟨alike_below (by simp), fun _ => streams,
      streams.finish, streams.otherFinish, .ahead streams.ahead⟩

/-- A property has the same value in both texts. -/
theorem value_eq {run otherRun : List Token}
    (same : (∃ tokens ⊆ line.before, run = tokens ∧ otherRun = tokens) ∨
      ∃ tokens ⊆ line.later, run = tokens.map line.moved.token ∧
        otherRun = tokens.map line.further.token) :
    valueOfTokens (line.lead ++ line.tail) otherRun =
      valueOfTokens (line.head ++ line.tail) run := by
  rcases same with ⟨tokens, isBefore, rfl, rfl⟩ | ⟨tokens, isLater, rfl, rfl⟩
  · have inside : ∀ token ∈ otherRun, token.Inside line.head :=
      fun token isToken => line.inFront token (isBefore isToken)
    rw [lead, List.append_assoc, valueOfTokens_append_left _ _ _ inside,
      valueOfTokens_append_left _ _ _ inside]
  · rcases eq_or_ne line.tail [] with nothing | goesOn
    · rw [line.empty nothing, List.subset_nil] at isLater
      subst isLater
      rfl
    · rw [valueOfTokens_append_right rfl goesOn, valueOfTokens_append_right rfl goesOn]

variable (line) in
/-- The text around a comment without it and with it. -/
def parallel : Parallel where
  source := line.head ++ line.tail
  other := line.lead ++ line.tail
  line := line.lineBehind
  keep _ := []
  Together := line.Streams line.Ahead
  Apart := line.Streams line.AheadOrApart
  line_injective := lineBehind_injective
  ended := Streams.ended
  apart streams := ⟨streams.finish, streams.otherFinish, .ahead streams.ahead⟩
  alike streams := streams.current.1
  next streams := streams.current.2.1
  feed streams _ := streams.current.2.2
  spacing {first second} streams := by
    refine ⟨⟨streams.finish, streams.otherFinish, ?_⟩, rfl⟩
    rw [Stream.ahead_skip_takeWhile, Stream.ahead_skip_takeWhile]
    exact streams.ahead.spacing
  values {first second} streams := by
    obtain ⟨ahead, run⟩ := streams.ahead.run (p := fun token => !token.endsValue)
      (fun same => by simp only [Token.endsValue, same])
      (fun token isFeed => by simp [Token.endsValue, isFeed])
    refine ⟨⟨streams.finish, streams.otherFinish, ?_⟩, value_eq run⟩
    rwa [Stream.ahead_skip_takeWhile, Stream.ahead_skip_takeWhile]

variable (line) in
/-- The streams over the two texts begin in front of the same token, or where they are apart. -/
theorem streams_ofTokens :
    line.Streams line.AheadOrApart (.ofTokens line.tokens) (.ofTokens line.edited) := by
  have inFront (token : Token) (isBefore : token ∈ line.before) : token.kind ≠ .endOfText :=
    (line.inFront token isBefore).1
  have below (displaced : Displacement) (token : Token)
      (isBelow : token ∈ line.later.map displaced.token) : token.kind ≠ .endOfText := by
    obtain ⟨token, isLater, rfl⟩ := List.mem_map.mp isBelow
    exact line.goesOn token isLater
  have stream : Stream.ofTokens line.tokens = ⟨line.before ++ line.later.map line.moved.token,
      line.moved.token line.finish, 0⟩ := by
    have goesOn : ∀ token ∈ line.before ++ line.later.map line.moved.token,
        token.kind ≠ .endOfText := by
      intro token isToken
      rcases List.mem_append.mp isToken with isBefore | isBelow
      · exact inFront token isBefore
      · exact below line.moved token isBelow
    have all := Stream.ofTokens_append goesOn
      (show (line.moved.token line.finish).kind = .endOfText from line.ends)
    simpa [tokens] using all
  have otherStream : Stream.ofTokens line.edited =
      ⟨line.before ++ line.remark :: line.feed :: line.later.map line.further.token,
        line.further.token line.finish, 0⟩ := by
    have goesOn : ∀ token ∈
        line.before ++ line.remark :: line.feed :: line.later.map line.further.token,
        token.kind ≠ .endOfText := by
      intro token isToken
      simp only [List.mem_append, List.mem_cons] at isToken
      rcases isToken with isBefore | rfl | rfl | isBelow
      · exact inFront token isBefore
      · simp [line.isRemark]
      · simp [line.isFeed]
      · exact below line.further token isBelow
    have all := Stream.ofTokens_append goesOn
      (show (line.further.token line.finish).kind = .endOfText from line.ends)
    simpa [edited] using all
  rw [stream, otherStream]
  refine ⟨rfl, rfl, ?_⟩
  rcases eq_or_ne line.before [] with nothing | goesOn
  · rw [nothing]
    exact .apart
  · exact .ahead (.inFront List.suffix_rfl goesOn)

end CommentLine

namespace Document

/-- A document with all docs in it changed. -/
def mapDocs (change : List Text → List Text) (document : Document) : Document :=
  { document with
    types := document.types.map (TypeDecl.mapDocs change)
    service :=
      { document.service with
        groups := document.service.groups.map (RouteGroup.mapDocs change) } }

/-- A document without docs. -/
def withoutDocs : Document → Document := mapDocs fun _ => []

/-- Docs of a declaration are docs of the document it is added to. -/
theorem mapDocs_add (change : List Text → List Text) (document : Document)
    (declaration : Declaration) :
    (document.mapDocs change).add (declaration.mapDocs change) =
      (document.add declaration).mapDocs change := by
  cases declaration with
  | types decls => simp only [mapDocs, add, Declaration.mapDocs, List.map_append]
  | group name routes =>
    simp only [mapDocs, add, Declaration.mapDocs, List.map_append, List.map_cons, List.map_nil]
    rfl
  | _ => rfl

/-- The docs of a document are those of its declarations. -/
theorem mapDocs_ofDeclarations (change : List Text → List Text) (source : Option Path)
    (declarations : List Declaration) :
    (ofDeclarations source declarations).mapDocs change =
      ofDeclarations source (declarations.map (Declaration.mapDocs change)) := by
  rw [ofDeclarations, ofDeclarations, List.foldl_map]
  exact (List.foldl_hom (mapDocs change) (mapDocs_add change)).symm

/-- A comment on lines of its own changes nothing in a document but docs. -/
theorem parse_withCommentLine {file : Path} {text : List Char} {document : Document}
    (read : parse ⟨file, text⟩ = .ok document) {tokens : List Token}
    (lexed : tokenize text = .ok tokens) {place : Nat} (starts : LineStart tokens place)
    {comment : List Char} (isComment : IsComment comment) :
    ∃ edited, parse ⟨file, withCommentLine text place comment⟩ = .ok edited ∧
      edited.withoutDocs = document.withoutDocs := by
  obtain ⟨line, rfl, edited, rfl, lexedEdited⟩ := tokenize_withCommentLine lexed starts isComment
  rw [parse_eq, lexed] at read
  rw [parse_eq, edited, lexedEdited]
  dsimp only at read ⊢
  cases readAll : many (Rule.declaration? (line.head ++ line.tail)) (.ofTokens line.tokens) with
  | error fault left =>
    rw [readAll] at read
    cases read
  | ok declarations left =>
    rw [readAll] at read
    cases read
    obtain ⟨answers, _, readEdited, same, -⟩ :=
      line.parallel.declarations _ _ _ _ line.streams_ofTokens readAll
    rw [show many (Rule.declaration? (line.lead ++ line.tail)) (.ofTokens line.edited) = _ from
      readEdited]
    refine ⟨_, rfl, ?_⟩
    rw [withoutDocs, mapDocs_ofDeclarations, mapDocs_ofDeclarations]
    exact congrArg _ same

/-- A comment between two members is among the docs of the second one, and the comment behind the
first one stays where it is. -/
theorem parse_withCommentLine_member :
    let file : Path := Path.ofString "a.api"
    let text := "type t \x7b\n a int // x\n b int\n\x7d".toList
    let comment := "/* c\nd */".toList
    let members : List Member :=
      [{ name := "a", type := .ofName "int", comment := "// x" },
       { name := "b", type := .ofName "int" }]
    let document : Document := { types := [.struct "t" members []], source := some file }
    parse ⟨file, text⟩ = .ok document ∧
      ∃ edited, parse ⟨file, withCommentLine text 21 comment⟩ = .ok edited ∧
        edited.withoutDocs = document.withoutDocs ∧ edited ≠ document := by
  intro file text comment members document
  have read : parse ⟨file, text⟩ = .ok document := by decide +kernel
  let feed : Token := ⟨.newline, "\\n", ⟨20, 2, 12⟩, 21⟩
  let tokens : List Token :=
    [⟨.keyword .type, "type", ⟨0, 1, 1⟩, 4⟩, ⟨.identifier, "t", ⟨5, 1, 6⟩, 6⟩,
     ⟨.mark .leftBrace, "\x7b", ⟨7, 1, 8⟩, 8⟩, ⟨.newline, "\\n", ⟨8, 1, 9⟩, 9⟩,
     ⟨.identifier, "a", ⟨10, 2, 2⟩, 11⟩, ⟨.identifier, "int", ⟨12, 2, 4⟩, 15⟩,
     ⟨.comment, "// x", ⟨16, 2, 8⟩, 20⟩, feed, ⟨.identifier, "b", ⟨22, 3, 2⟩, 23⟩,
     ⟨.identifier, "int", ⟨24, 3, 4⟩, 27⟩, ⟨.newline, "\\n", ⟨27, 3, 7⟩, 28⟩,
     ⟨.mark .rightBrace, "\x7d", ⟨28, 4, 1⟩, 29⟩, ⟨.endOfText, "", ⟨29, 4, 2⟩, 29⟩]
  have lexed : tokenize text = .ok tokens := by decide +kernel
  have starts : LineStart tokens 21 := .inr ⟨feed, by simp [tokens], rfl, rfl⟩
  have isComment : IsComment comment := by
    have unclosed : ¬['*', '/'] <:+: " c\nd ".toList := by decide
    exact .block unclosed
  have changed : parse ⟨file, withCommentLine text 21 comment⟩ ≠ .ok document := by decide +kernel
  obtain ⟨edited, readEdited, same⟩ := parse_withCommentLine read lexed starts isComment
  refine ⟨read, edited, readEdited, same, ?_⟩
  rintro rfl
  exact changed readEdited

end Document

end ApiDescription
