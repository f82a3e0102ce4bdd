import ApiDescription.Proofs.Document.Docs
import ApiDescription.Proofs.Grammar.Transparency

/-!
# Descriptions with a comment inserted

A comment written behind the code of a line is no part of what a text describes. The text
still describes the same but for docs and comments, whatever line it is, unless the line is
bare: then the comment itself is reported.
-/

namespace ApiDescription

namespace Document

/-- A document without what comments say about anything in it. -/
def withoutRemarks (document : Document) : Document :=
  { document with
    types := document.types.map TypeDecl.withoutRemarks
    service :=
      { document.service with
        groups := document.service.groups.map RouteGroup.withoutRemarks } }

/-- Comments about a declaration say nothing about what it adds to a document. -/
theorem withoutRemarks_add (document : Document) (declaration : Declaration) :
    (document.add declaration).withoutRemarks =
      document.withoutRemarks.add declaration.withoutRemarks := by
  cases declaration with
  | types decls => simp only [withoutRemarks, add, Declaration.withoutRemarks, List.map_append]
  | group name routes =>
    simp only [withoutRemarks, add, Declaration.withoutRemarks, List.map_append, List.map_cons,
      List.map_nil]
    rfl
  | _ => rfl

/-- A document is without remarks what its declarations without remarks make. -/
theorem withoutRemarks_ofDeclarations (source : Option Path) (declarations : List Declaration) :
    (ofDeclarations source declarations).withoutRemarks =
      ofDeclarations source (declarations.map Declaration.withoutRemarks) := by
  rw [ofDeclarations, ofDeclarations, List.foldl_map]
  exact (List.foldl_hom withoutRemarks fun document declaration =>
    (withoutRemarks_add document declaration).symm).symm

end Document

/-- What the tokens of a text say about those around one of them. -/
theorem Tiles.around {text : List Char} {start finish : Nat} {before later : List Token}
    {token : Token} (tiles : Tiles text start (before ++ token :: later) finish) :
    (∀ earlier ∈ before, earlier.stop ≤ token.start.offset) ∧ token ∉ later ∧
      ∀ last ∈ before.getLast?, last.Precedes text token := by
  have ordered := tiles.ordered
  rw [List.pairwise_append, List.pairwise_cons] at ordered
  refine ⟨fun earlier isBefore => ordered.2.2 earlier isBefore token List.mem_cons_self, ?_, ?_⟩
  · intro isLater
    have filled := (tiles.spelled token (by simp)).1
    have apart := ordered.2.1.1 token isLater
    omega
  · intro last isLast
    obtain ⟨init, rfl⟩ := List.getLast?_eq_some_iff.mp isLast
    rw [List.append_assoc] at tiles
    obtain ⟨_, -, behind⟩ := tiles.exists_of_append
    cases behind with
    | more _ _ _ _ _ later =>
      cases later with
      | more behind gap _ _ _ _ => exact ⟨behind, Lexeme.not_mem_of_gap gap⟩

/-- What stands below a line looks the same with a comment on that line. -/
theorem Displacement.face_below {head note : List Char} (within : '\n' ∉ note) (token : Token) :
    ((below (head ++ remarkText note)).token token).face = ((below head).token token).face := by
  have noFeed : '\n' ∉ remarkText note := by simpa [remarkText] using within
  have lines : (head ++ remarkText note).count '\n' = head.count '\n' := by
    rw [List.count_append, List.count_eq_zero_of_not_mem noFeed, Nat.add_zero]
  simp [Token.face, Displacement.token, Displacement.location, below, lines]

/-- A token in a text is not the one that starts behind it. -/
theorem Token.Inside.ne {head : List Char} {token feed : Token} (inside : token.Inside head)
    (length : head.length = feed.start.offset) : token ≠ feed := by
  rintro rfl
  obtain ⟨-, filled, bounded⟩ := inside
  omega

/-- The tokens around a comment inserted in front of a line feed. -/
def Insertion.ofText {head note : List Char} {feed feedBehind : Token} {later : List Token}
    (place : Location) (isFeed : feed.kind = .newline) (isFeedBehind : feedBehind.kind = .newline)
    (length : head.length = feed.start.offset) (within : '\n' ∉ note)
    (notLater : feed ∉ later.map (Displacement.below head).token) : Insertion where
  feed := feed
  remark := feed.remark note
  feedBehind := feedBehind
  later := later
  finish := Token.finish place
  Known := Token.Inside head
  moved := (Displacement.below head).token
  further := (Displacement.below (head ++ remarkText note)).token
  isFeed := isFeed
  isRemark := rfl
  isFeedBehind := isFeedBehind
  remark_line := rfl
  face_further := Displacement.face_below within
  ends := rfl
  known_ne _ inside := inside.ne length
  feed_notMem := notLater

namespace Insertion

variable {head note : List Char} {feed feedBehind : Token} {later : List Token} {place : Location}
  {isFeed : feed.kind = .newline} {isFeedBehind : feedBehind.kind = .newline}
  {length : head.length = feed.start.offset} {within : '\n' ∉ note}
  {notLater : feed ∉ later.map (Displacement.below head).token}

/-- Properties have the same values around the comment. -/
theorem keepsValues_ofText (tail : List Char) :
    (ofText place isFeed isFeedBehind length within notLater).KeepsValues (head ++ '\n' :: tail)
      (head ++ remarkText note ++ '\n' :: tail) where
  inFront tokens known := by
    rw [List.append_assoc, valueOfTokens_append_left _ _ _ known,
      valueOfTokens_append_left _ _ _ known]
  below tokens := by
    have goesOn : '\n' :: tail ≠ [] := List.cons_ne_nil _ _
    exact (valueOfTokens_append_right rfl goesOn tokens).trans
      (valueOfTokens_append_right rfl goesOn tokens).symm

/-- The tokens of the text and those around the comment begin alike. -/
theorem related_ofText {before : List Token} (known : ∀ token ∈ before, token.Inside head)
    (noComment : ∀ token ∈ before.getLast?, token.kind ≠ .comment)
    (goesOn : ∀ token ∈ later, token.kind ≠ .endOfText)
    (chain : (before ++ feed :: later.map (Displacement.below head).token).IsChain Token.GoesOn) :
    (ofText place isFeed isFeedBehind length within notLater).Related
      ⟨before ++ feed :: later.map (Displacement.below head).token,
        (Displacement.below head).token (Token.finish place), 0⟩
      (.ofTokens (before ++ feed.remark note :: feedBehind ::
        (later ++ [Token.finish place]).map
          (Displacement.below (head ++ remarkText note)).token)) := by
  let moved := Displacement.below (head ++ remarkText note)
  have allGoOn : ∀ token ∈ before ++ feed.remark note :: feedBehind :: later.map moved.token,
      token.kind ≠ .endOfText := by
    intro token isMember
    simp only [List.mem_append, List.mem_cons, List.mem_map] at isMember
    rcases isMember with isBefore | rfl | rfl | ⟨token, isLater, rfl⟩
    · exact (known token isBefore).1
    · simp [Token.remark]
    · simp [isFeedBehind]
    · exact goesOn token isLater
  have stream : Stream.ofTokens (before ++ feed.remark note :: feedBehind ::
      (later ++ [Token.finish place]).map moved.token) =
      ⟨before ++ feed.remark note :: feedBehind :: later.map moved.token,
        moved.token (Token.finish place), 0⟩ := by
    have all := Stream.ofTokens_append allGoOn
      (show (moved.token (Token.finish place)).kind = .endOfText from rfl)
    simpa using all
  rw [stream]
  exact ⟨rfl, rfl, chain, .inl ⟨before, rfl, rfl, known, noComment⟩⟩

end Insertion

/-- The tokens of a text are related to those of the text with a comment inserted behind a line
that has none, and properties have the same values in both. -/
theorem exists_insertion {text : List Char} {others : List Token} {finish feed : Token}
    (lexed : tokenize text = .ok (others ++ [finish])) (ends : finish.kind = .endOfText)
    (inside : ∀ token ∈ others, token.kind ≠ .endOfText ∧ token.start.offset < token.stop)
    (isToken : feed ∈ others) (isFeed : feed.kind = .newline)
    (noComment : ∀ token ∈ others, token.kind = .comment → ¬token.Precedes text feed)
    {note : List Char} (within : '\n' ∉ note) :
    ∃ (insertion : Insertion) (tokens : List Token),
      insertion.feed = feed ∧ insertion.remark = feed.remark note ∧
      tokenize (withRemark text feed note) = .ok tokens ∧
      insertion.Related ⟨others, finish, 0⟩ (.ofTokens tokens) ∧
      insertion.KeepsValues text (withRemark text feed note) := by
  have ended : ∀ token ∈ others ++ [finish], token.kind = .comment →
      token.stop ≠ feed.start.offset := by
    intro token isMember isComment same
    rcases List.mem_append.mp isMember with isOther | isFinish
    · apply noComment token isOther isComment
      rw [Token.Precedes, same]
      simp [sliceOf]
    · rw [List.mem_singleton.mp isFinish, ends] at isComment
      cases isComment
  obtain ⟨head, tail, before, later, feedBehind, place, rfl, length, split, isFeedBehind,
    lexedEdited⟩ := tokenize_withRemark lexed (List.mem_append_left _ isToken) isFeed ended within
  have edited : withRemark (head ++ '\n' :: tail) feed note =
      head ++ remarkText note ++ '\n' :: tail := by
    rw [withRemark, ← length, List.take_left, List.drop_left]
  have whole : others ++ [finish] =
      before ++ feed :: later.map (Displacement.below head).token ++
        [(Displacement.below head).token (Token.finish place)] := by
    simpa using split
  obtain ⟨rfl, same⟩ := List.append_inj' whole rfl
  obtain rfl := List.singleton_inj.mp same
  obtain ⟨_, _, run, -, sameRun⟩ := exists_rounds_of_tokenize lexed
  obtain ⟨rfl, -⟩ := List.append_inj' sameRun rfl
  obtain ⟨inFront, notLater, lastPrecedes⟩ :=
    (Tiles.of_rounds run (Cursor.placed_ofText _)).around
  have goesOn : ∀ token ∈ later, token.kind ≠ .endOfText := fun token isLater =>
    (inside _ (List.mem_append_right _ (List.mem_cons_of_mem feed
      (List.mem_map_of_mem isLater : (Displacement.below head).token token ∈ _)))).1
  have known : ∀ token ∈ before, token.Inside head := by
    intro token isBefore
    obtain ⟨goesOn, filled⟩ := inside token (List.mem_append_left _ isBefore)
    exact ⟨goesOn, filled, length ▸ inFront token isBefore⟩
  have noLastComment : ∀ token ∈ before.getLast?, token.kind ≠ .comment := by
    intro token isLast isComment
    have isBefore : token ∈ before := List.mem_of_getLast? isLast
    exact noComment token (List.mem_append_left _ isBefore) isComment (lastPrecedes token isLast)
  rw [edited]
  exact ⟨Insertion.ofText place isFeed isFeedBehind length within notLater, _, rfl, rfl,
    edited ▸ lexedEdited, Insertion.related_ofText known noLastComment goesOn
      (Scan.isChain_goesOn run), Insertion.keepsValues_ofText tail⟩

namespace Document

/-- A comment behind the code of a line is the fault if the line is bare, and otherwise changes
nothing in the document but docs and comments. -/
theorem parse_withRemark {file : Path} {text : List Char} {document : Document}
    (read : parse ⟨file, text⟩ = .ok document) {tokens : List Token}
    (lexed : tokenize text = .ok tokens) {feed : Token} (isToken : feed ∈ tokens)
    (isFeed : feed.kind = .newline)
    (noComment : ∀ token ∈ tokens, token.kind = .comment → ¬token.Precedes text feed)
    {note : List Char} (within : '\n' ∉ note) :
    (Bare.line feed text (.ofTokens tokens) →
      parse ⟨file, withRemark text feed note⟩ =
        .error (.located (.expectedLineEnd (feed.remark note)) (feed.remark note).start)) ∧
    (¬Bare.line feed text (.ofTokens tokens) →
      ∃ edited, parse ⟨file, withRemark text feed note⟩ = .ok edited ∧
        edited.withoutRemarks = document.withoutRemarks) := by
  obtain ⟨others, finish, declarations, left, lexedOthers, ends, inside, readAll, -, rfl⟩ :=
    exists_declarations_of_parse read
  obtain rfl := Except.ok.inj (lexedOthers.symm.trans lexed)
  have isOther : feed ∈ others := by
    rcases List.mem_append.mp isToken with isOther | isFinish
    · exact isOther
    · rw [← List.mem_singleton.mp isFinish, isFeed] at ends
      cases ends
  obtain ⟨insertion, edited, rfl, sameRemark, lexedEdited, related, values⟩ :=
    exists_insertion lexed ends (fun token isOther => ⟨(inside token isOther).1,
      (inside token isOther).2.1⟩) isOther isFeed
      (fun token isOther => noComment token (List.mem_append_left _ isOther)) within
  rw [Stream.ofTokens_append (fun token isOther => (inside token isOther).1) ends, parse_eq,
    lexedEdited, ← sameRemark]
  dsimp only
  rcases Insertion.Follows.declarations values _ _ _ _ related readAll with
    ⟨held, left, failed⟩ | ⟨passes, answers, left, readEdited, sameAnswers, -⟩
  · rw [failed]
    exact ⟨fun _ => rfl, fun passes => absurd held passes⟩
  · rw [readEdited]
    refine ⟨fun held => absurd held passes, fun _ => ⟨_, rfl, ?_⟩⟩
    rw [withoutRemarks_ofDeclarations, withoutRemarks_ofDeclarations, sameAnswers]

/-- A comment behind an import is a fault, one behind a member is its comment. -/
theorem parse_withRemark_import :
    let file : Path := Path.ofString "a.api"
    let text := "import \"b.api\"\ntype t \x7b\n a int\n\x7d".toList
    let behindImport : Token := ⟨.newline, "\\n", ⟨14, 1, 15⟩, 15⟩
    let behindMember : Token := ⟨.newline, "\\n", ⟨30, 3, 7⟩, 31⟩
    let note := "c".toList
    let member : Member := { name := "a", type := .ofName "int" }
    let document : Document :=
      { imports := ["b.api"], types := [.struct "t" [member] []], source := some file }
    parse ⟨file, text⟩ = .ok document ∧
      parse ⟨file, withRemark text behindImport note⟩ =
        .error (.located (.expectedLineEnd ⟨.comment, "// c", ⟨15, 1, 16⟩, 19⟩) ⟨15, 1, 16⟩) ∧
      ∃ edited, parse ⟨file, withRemark text behindMember note⟩ = .ok edited ∧
        edited.withoutRemarks = document.withoutRemarks := by
  intro file text behindImport behindMember note member document
  have read : parse ⟨file, text⟩ = .ok document := by decide +kernel
  let tokens : List Token :=
    [⟨.keyword .importWord, "import", ⟨0, 1, 1⟩, 6⟩, ⟨.quotedText, "b.api", ⟨7, 1, 8⟩, 14⟩,
     behindImport, ⟨.keyword .type, "type", ⟨15, 2, 1⟩, 19⟩, ⟨.identifier, "t", ⟨20, 2, 6⟩, 21⟩,
     ⟨.mark .leftBrace, "\x7b", ⟨22, 2, 8⟩, 23⟩, ⟨.newline, "\\n", ⟨23, 2, 9⟩, 24⟩,
     ⟨.identifier, "a", ⟨25, 3, 2⟩, 26⟩, ⟨.identifier, "int", ⟨27, 3, 4⟩, 30⟩, behindMember,
     ⟨.mark .rightBrace, "\x7d", ⟨31, 4, 1⟩, 32⟩, ⟨.endOfText, "", ⟨32, 4, 2⟩, 32⟩]
  have lexed : tokenize text = .ok tokens := by decide +kernel
  have noComment : ∀ token ∈ tokens, token.kind ≠ .comment := by decide
  have within : '\n' ∉ note := by decide
  have bareImport : Bare.line behindImport text (.ofTokens tokens) := by
    refine ⟨[], _, .none _, [], _, rfl, ?_⟩
    exact ⟨_, _, rfl, _, _, rfl, rfl⟩
  have atImport := parse_withRemark read lexed (show behindImport ∈ tokens by simp [tokens]) rfl
    (fun token isToken isComment => absurd isComment (noComment token isToken)) within
  have atMember := parse_withRemark read lexed (show behindMember ∈ tokens by simp [tokens]) rfl
    (fun token isToken isComment => absurd isComment (noComment token isToken)) within
  refine ⟨read, atImport.1 bareImport, atMember.2 fun bareMember => ?_⟩
  have readEdited : parse ⟨file, withRemark text behindMember note⟩ =
      .ok { document with types := [.struct "t" [{ member with comment := "// c" }] []] } := by
    decide +kernel
  rw [atMember.1 bareMember] at readEdited
  cases readEdited

/-- Not every comment behind the code of a line leaves a description as it is. -/
theorem not_forall_parse_withRemark :
    ¬∀ (file : Path) (text : List Char) (document : Document) (tokens : List Token) (feed : Token)
      (note : List Char), parse ⟨file, text⟩ = .ok document → tokenize text = .ok tokens →
      feed ∈ tokens → feed.kind = .newline →
      (∀ token ∈ tokens, token.kind = .comment → ¬token.Precedes text feed) → '\n' ∉ note →
      ∃ edited, parse ⟨file, withRemark text feed note⟩ = .ok edited ∧
        edited.withoutRemarks = document.withoutRemarks := by
  intro claim
  let file : Path := Path.ofString "test.api"
  let text := "import \"a.api\"\n".toList
  let feed : Token := ⟨.newline, "\\n", ⟨14, 1, 15⟩, 15⟩
  let tokens : List Token :=
    [⟨.keyword .importWord, "import", ⟨0, 1, 1⟩, 6⟩, ⟨.quotedText, "a.api", ⟨7, 1, 8⟩, 14⟩, feed,
     ⟨.endOfText, "", ⟨15, 2, 1⟩, 15⟩]
  have read : parse ⟨file, text⟩ = .ok { imports := ["a.api"], source := some file } := by
    decide +kernel
  have lexed : tokenize text = .ok tokens := by decide +kernel
  obtain ⟨edited, readEdited, -⟩ := claim file text _ tokens feed "c".toList read lexed (by decide)
    rfl (by decide) (by decide)
  have failed : parse ⟨file, withRemark text feed "c".toList⟩ =
      .error (.located (.expectedLineEnd ⟨.comment, "// c", ⟨15, 1, 16⟩, 19⟩) ⟨15, 1, 16⟩) := by
    decide +kernel
  rw [failed] at readEdited
  cases readEdited

end Document

end ApiDescription
