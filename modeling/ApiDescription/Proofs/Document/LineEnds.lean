import ApiDescription.Proofs.Document.Joining
import ApiDescription.Proofs.Grammar.Parallel
import ApiDescription.Proofs.Token.LineEnds

/-!
# Descriptions whose lines end with carriage returns

A description says the same whether its lines end with a line feed or with a carriage return and a
line feed. The two texts are read in parallel and are never apart. Properties are the only ones to
look at the text, and what they cut out of it is part of a line.
-/

namespace ApiDescription

/-- Of items that are alike those in front are alike as long as a question has the same answers. -/
theorem forall₂_takeWhile {α β : Type} {alike : α → β → Prop} {p : α → Bool} {q : β → Bool}
    {items : List α} {others : List β} (all : List.Forall₂ alike items others)
    (same : ∀ item other, alike item other → q other = p item) :
    List.Forall₂ alike (items.takeWhile p) (others.takeWhile q) := by
  induction all with
  | nil => exact .nil
  | @cons item other items others holds _ inductionHypothesis =>
    rw [List.takeWhile_cons, List.takeWhile_cons, same item other holds]
    split
    · exact .cons holds inductionHypothesis
    · exact .nil

/-- Of items that are alike the last ones are. -/
theorem forall₂_getLastD {α β : Type} {alike : α → β → Prop} {items : List α} {others : List β}
    (all : List.Forall₂ alike items others) {item : α} {other : β} (holds : alike item other) :
    alike (items.getLastD item) (others.getLastD other) := by
  induction all generalizing item other with
  | nil => exact holds
  | cons head _ inductionHypothesis =>
    rw [List.getLastD_cons, List.getLastD_cons]
    exact inductionHypothesis head

/-- Tokens that are found again are alike. -/
theorem Token.Widened.alike {text : List Char} {token other : Token}
    (widened : token.Widened text other) : token.Alike id other :=
  ⟨widened.kind, widened.value, widened.line⟩

/-- Streams over a text and over the same text with carriage returns, in front of the same token. -/
structure Stream.Widened (text : List Char) (first second : Stream) : Prop where
  finish : first.finish.Widened text second.finish
  ends : first.finish.kind = .endOfText
  tiles : ∃ start stop, Tiles text start first.ahead stop
  inLine : ∀ token ∈ first.ahead, token.kind ≠ .newline → '\n' ∉ token.slice text
  ahead : List.Forall₂ (Token.Widened text) first.ahead second.ahead

namespace Stream.Widened

variable {text : List Char} {first second : Stream}

/-- The texts are read to the end alike. -/
theorem ended (widened : first.Widened text second) : first.Ended ∧ second.Ended :=
  ⟨widened.ends, widened.finish.kind.trans widened.ends⟩

/-- The next tokens are alike. -/
theorem current (widened : first.Widened text second) :
    first.current.Widened text second.current := by
  obtain ⟨finish, -, -, -, aheadWidened⟩ := widened
  obtain ⟨ahead, _, _⟩ := first
  obtain ⟨otherAhead, _, _⟩ := second
  cases aheadWidened with
  | nil => exact finish
  | cons head _ => exact head

/-- Behind as many tokens the streams are in front of the same token. -/
theorem skip (widened : first.Widened text second) (count : Nat) :
    (first.skip count).Widened text (second.skip count) := by
  obtain ⟨finish, ends, ⟨start, stop, tiles⟩, inLine, ahead⟩ := widened
  refine ⟨finish, ends, ?_, fun token isLater => inLine token (List.mem_of_mem_drop isLater),
    List.forall₂_drop count ahead⟩
  rw [← List.take_append_drop count first.ahead] at tiles
  obtain ⟨middle, -, behind⟩ := tiles.exists_of_append
  exact ⟨middle, stop, behind⟩

/-- Behind the tokens of a class the streams are in front of the same token. -/
theorem skip_takeWhile (widened : first.Widened text second) {p : Token → Bool}
    (onKind : ∀ {token other : Token}, other.kind = token.kind → p other = p token) :
    List.Forall₂ (Token.Widened text) (first.ahead.takeWhile p) (second.ahead.takeWhile p) ∧
      (first.skip (first.ahead.takeWhile p).length).Widened text
        (second.skip (second.ahead.takeWhile p).length) := by
  have run := forall₂_takeWhile widened.ahead fun token other same => onKind same.kind
  refine ⟨run, ?_⟩
  rw [← run.length_eq]
  exact widened.skip _

end Stream.Widened

/-- What is cut out of a line is the same with carriage returns. -/
theorem valueOfTokens_withCarriageReturns {text : List Char} {start stop : Nat}
    {run others : List Token} (widened : List.Forall₂ (Token.Widened text) run others)
    (tiles : Tiles text start run stop) (inLine : ∀ token ∈ run, '\n' ∉ token.slice text)
    (inValue : ∀ token ∈ run, token.endsValue = false) :
    valueOfTokens (Text.withCarriageReturns text) others = valueOfTokens text run := by
  have texts : List.Forall₂ Eq (run.map Token.text) (others.map Token.text) := by
    rw [List.forall₂_map_left_iff, List.forall₂_map_right_iff]
    exact widened.imp fun token other same => same.alike.text.symm
  have nothing : (Text.withCarriageReturns text).isEmpty = text.isEmpty := by
    rw [Bool.eq_iff_iff, List.isEmpty_iff, List.isEmpty_iff, ← List.getLast?_eq_none_iff,
      ← List.getLast?_eq_none_iff, Text.getLast?_withCarriageReturns]
  cases widened with
  | nil => rfl
  | @cons first other rest others head later =>
    have sameEmpty : others.isEmpty = rest.isEmpty := by cases later <;> rfl
    have apart {token : Token} (inRun : token ∈ first :: rest) :
        token.kind ≠ .newline ∧ token.kind ≠ .comment := by
      have goesOn := inValue token inRun
      constructor <;> rintro isKind <;> simp [Token.endsValue, isKind] at goesOn
    have last := forall₂_getLastD later head
    have lastApart := apart (List.getLastD_mem_cons (l := rest) (a := first))
    have ends := tiles.stop_getLastD
    have cut : sliceOf (Text.withCarriageReturns text) other.start.offset
          (others.getLastD other).stop =
        sliceOf text first.start.offset (rest.getLastD first).stop := by
      rw [head.start (apart List.mem_cons_self).1, last.stop lastApart.1 lastApart.2, ends,
        Text.sliceOf_withCarriageReturns text tiles.from_start.bounded.1,
        Text.withCarriageReturns_eq_self (tiles.from_start.not_mem_lineFeed inLine)]
    simp only [valueOfTokens, sameEmpty, head.kind, head.alike.text, eq_of_forall₂ texts, cut,
      nothing]

namespace Text

/-- A text and the same text with carriage returns. -/
def lineEnds (text : List Char) : Parallel where
  source := text
  other := withCarriageReturns text
  line := id
  keep := id
  Together := Stream.Widened text
  Apart := Stream.Widened text
  line_injective := Function.injective_id
  ended := Stream.Widened.ended
  apart := id
  alike widened := widened.current.alike
  next widened _ := by
    rw [← Stream.skip_one, ← Stream.skip_one]
    exact widened.skip 1
  feed widened _ := by
    rw [← Stream.skip_one, ← Stream.skip_one]
    exact widened.skip 1
  spacing widened := by
    obtain ⟨run, behind⟩ := widened.skip_takeWhile (p := Token.isSpacing)
      fun same => by simp only [Token.isSpacing, same]
    exact ⟨behind, Rule.docsOfRun_congr (run.imp fun _ _ same => ⟨same.kind, same.value⟩) [] 0⟩
  values {first second} widened := by
    obtain ⟨run, behind⟩ := widened.skip_takeWhile (p := fun token => !token.endsValue)
      fun same => by simp only [Token.endsValue, same]
    obtain ⟨start, stop, tiles⟩ := widened.tiles
    rw [← List.takeWhile_append_dropWhile (p := fun token => !token.endsValue)
      (l := first.ahead)] at tiles
    obtain ⟨middle, runTiles, -⟩ := tiles.exists_of_append
    have inValue (token : Token)
        (inRun : token ∈ first.ahead.takeWhile fun token => !token.endsValue) :
        token.endsValue = false := by
      simpa using List.mem_takeWhile_imp inRun
    refine ⟨behind, valueOfTokens_withCarriageReturns run runTiles (fun token inRun => ?_) inValue⟩
    refine widened.inLine token (List.takeWhile_subset _ inRun) fun isFeed => ?_
    have goesOn := inValue token inRun
    simp [Token.endsValue, isFeed] at goesOn

end Text

namespace Document

/-- What is read and logged follows from the declarations of a text. -/
theorem read_of_many (file : Path) {text : List Char} {tokens : List Token}
    {declarations : List Declaration} {left : Stream} (lexed : tokenize text = .ok tokens)
    (readAll : many (Rule.declaration? text) (.ofTokens tokens) = .ok declarations left) :
    Document.read ⟨file, text⟩ =
      ⟨.ok (ofDeclarations (some file) declarations), mergeWarnings file declarations ++
        [(ofDeclarations (some file) declarations).readRecord file]⟩ := by
  have items := items_of_many readAll
  unfold Document.read Rule.declarations
  unfold many at readAll
  rw [lexed]
  dsimp only at readAll ⊢
  cases failed : (collect (Rule.declaration? text) (Stream.ofTokens tokens)).fault with
  | some fault =>
    rw [failed] at readAll
    cases readAll
  | none => rw [items]

/-- A description says the same if all its lines end with a carriage return and a line feed, unless
a token goes on over the end of a line. The warnings are the same, too. -/
theorem read_withCarriageReturns {file : Path} {text : List Char} {document : Document}
    (read : parse ⟨file, text⟩ = .ok document)
    (inLine : ∀ tokens, tokenize text = .ok tokens → ∀ token ∈ tokens, token.kind ≠ .newline →
      '\n' ∉ token.slice text) :
    parse ⟨file, Text.withCarriageReturns text⟩ = .ok document ∧
      Document.read ⟨file, Text.withCarriageReturns text⟩ = Document.read ⟨file, text⟩ := by
  obtain ⟨tokens, finish, declarations, left, lexed, ends, inside, readAll, -, rfl⟩ :=
    exists_declarations_of_parse read
  have noFeeds (token : Token) (isToken : token ∈ tokens) :=
    inLine _ lexed token (List.mem_append_left _ isToken)
  obtain ⟨others, otherFinish, lexedWidened, widened, sameFinish⟩ :=
    tokenize_withCarriageReturns lexed noFeeds
  obtain ⟨front, last, split, lastEnds, known⟩ := exists_stream_of_tokenize lexedWidened
  obtain ⟨rfl, isLast⟩ := List.append_inj' split rfl
  rw [List.singleton_inj] at isLast
  subst isLast
  obtain ⟨tiled, place, sameTokens, -, stop, tiles, -, -⟩ := exists_tiles_of_tokenize lexed
  obtain ⟨rfl, -⟩ := List.append_inj' sameTokens rfl
  have stream := Stream.ofTokens_append (fun token isToken => (inside token isToken).1) ends
  have streamWidened := Stream.ofTokens_append (fun token isToken => (known token isToken).1.1)
    lastEnds
  have together : Stream.Widened text ⟨tokens, finish, 0⟩ ⟨others, otherFinish, 0⟩ :=
    ⟨sameFinish, ends, ⟨0, stop, tiles⟩, noFeeds, widened⟩
  obtain ⟨answers, otherLeft, readWidened, same, -⟩ :=
    (Text.lineEnds text).declarations _ _ _ _ together readAll
  obtain rfl : answers = declarations := by
    have sameItems : List.map (Declaration.mapDocs id) answers =
        List.map (Declaration.mapDocs id) declarations := same
    rwa [Declaration.map_mapDocs_id] at sameItems
  rw [← stream] at readAll
  have whole := read_of_many file lexed readAll
  have wholeWidened := read_of_many file lexedWidened (streamWidened ▸ readWidened)
  refine ⟨?_, wholeWidened.trans whole.symm⟩
  rw [parse, wholeWidened]

/-- Neither a property nor the comment behind it holds the carriage return, and routes are still
merged into the first service. -/
theorem read_withCarriageReturns_service :
    let file : Path := Path.ofString "a.api"
    let text := "info (\n k: a /b // c\n)\nservice s \x7b\x7d\n// d\nservice t \x7b\x7d\n".toList
    let document : Document :=
      { info := { properties := .ofList [("k", "a /b")] }
        service := { name := "s", groups := [{}, {}] }, source := some file }
    let ended := Text.withCarriageReturns text
    '\r' ∈ ended ∧ parse ⟨file, ended⟩ = .ok document ∧
      (Document.read ⟨file, ended⟩).log =
        [mergedService file "s" "t", document.readRecord file] := by
  intro file text document ended
  have parsed : parse ⟨file, text⟩ = .ok document := by decide +kernel
  have logged : (Document.read ⟨file, text⟩).log =
      [mergedService file "s" "t", document.readRecord file] := by decide +kernel
  have inLine (tokens : List Token) (lexed : tokenize text = .ok tokens) :
      ∀ token ∈ tokens, token.kind ≠ .newline → '\n' ∉ token.slice text := by
    have all : (tokenize text).toOption.all
        (fun tokens => tokens.all fun token =>
          decide (token.kind ≠ .newline → '\n' ∉ token.slice text)) = true := by decide +kernel
    rw [lexed] at all
    simpa [Except.toOption, or_iff_not_imp_left] using all
  obtain ⟨parsedEnded, same⟩ := read_withCarriageReturns parsed inLine
  exact ⟨by decide +kernel, parsedEnded, (congrArg Logged.log same).trans logged⟩

end Document

end ApiDescription
