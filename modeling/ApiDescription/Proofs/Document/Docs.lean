import ApiDescription.Proofs.Document.Joining
import ApiDescription.Proofs.Grammar.Remarks
import Mathlib.Data.List.Perm.Basic

/-!
# Which comments are docs

The docs of an item are comments of the source. They stand directly above the item, one
below the other without a blank line, and no comment is used twice. Whether they have their
lines to themselves is another matter: docs are looked for from the last bracket or line
feed on, so that a comment behind a bracket documents the item below it.
-/

namespace ApiDescription

/-- A token that ends on the line on which another one starts, in front of it. -/
def Token.Precedes (text : List Char) (earlier later : Token) : Prop :=
  earlier.stop ≤ later.start.offset ∧ '\n' ∉ sliceOf text earlier.stop later.start.offset

instance (text : List Char) (earlier later : Token) :
    Decidable (earlier.Precedes text later) :=
  inferInstanceAs (Decidable (_ ∧ _))

/-- A token in front of which its line holds only blanks and comments. The line feed that ends
the line above does not count. -/
def StandsAlone (text : List Char) (tokens : List Token) (token : Token) : Prop :=
  ∀ other ∈ tokens, other.Precedes text token → other.kind = .comment ∨ other.kind = .newline

instance (text : List Char) (tokens : List Token) (token : Token) :
    Decidable (StandsAlone text tokens token) :=
  inferInstanceAs (Decidable (∀ other ∈ tokens, _ → _))

/-- A token behind a bracket on the same line, with only blanks and comments between them. -/
def TrailsBracket (text : List Char) (tokens : List Token) (token : Token) : Prop :=
  ∃ bracket ∈ tokens, bracket.isBracket = true ∧ bracket.Precedes text token ∧
    ∀ other ∈ tokens, bracket.stop ≤ other.start.offset → other.stop ≤ token.start.offset →
      other.kind = .comment

/-- Two tokens with only blanks and at most one line feed between them. -/
structure Token.NextTo (text : List Char) (earlier later : Token) : Prop where
  before : earlier.stop ≤ later.start.offset
  blank : ∀ c ∈ sliceOf text earlier.stop later.start.offset, Lexeme.isGap c = true ∨ c = '\n'
  noBlankLine : (sliceOf text earlier.stop later.start.offset).count '\n' ≤ 1

/-- The items of a document, types and their members before routes. -/
def Document.items (document : Document) : List Item :=
  document.types.flatMap TypeDecl.items ++
    document.service.groups.flatMap fun group => group.routes.map .route

/-- An item with the tokens of the comments attached to it, in the tokens of a text. -/
structure Item.Commented (text : List Char) (tokens : List Token) (item : Item)
    (remarks : Remarks) : Prop where
  docs : item.docs = remarks.docs.map Token.text
  comment : item.comment = (remarks.trailing.map Token.text).getD []
  /-- What is attached are comments of the text. -/
  areComments : ∀ token ∈ remarks.comments, token ∈ tokens ∧ token.kind = .comment
  /-- The item is read from its first token on. -/
  read : ∃ stream later, stream.Ended ∧ stream.ahead = remarks.first :: later ∧
    stream.ahead <:+: tokens ∧ item.ReadFrom text stream
  /-- The docs and the first token stand one below the other. -/
  above : (remarks.docs ++ [remarks.first]).IsChain (Token.NextTo text)
  /-- Docs have their lines to themselves unless they stand behind a bracket. -/
  alone : ∀ token ∈ remarks.docs, StandsAlone text tokens token ↔ ¬TrailsBracket text tokens token

/-- What is cut out between two places is cut out between places further apart. -/
theorem mem_sliceOf_of_le {source : List Char} {first start stop last : Nat}
    (before : first ≤ start)
    (behind : stop ≤ last) {c : Char} (found : c ∈ sliceOf source start stop) :
    c ∈ sliceOf source first last := by
  by_cases ordered : start ≤ stop
  · rw [← sliceOf_append_sliceOf source before (by omega),
      ← sliceOf_append_sliceOf source ordered behind]
    exact List.mem_append_right _ (List.mem_append_left _ found)
  · have nothing : stop - start = 0 := by omega
    rw [sliceOf, nothing] at found
    simp at found

namespace Tiles

variable {text : List Char} {start finish : Nat}

/-- Only blanks stand between two tokens in turn. -/
theorem nextTo {token next : Token} {rest : List Token}
    (tiles : Tiles text start (token :: next :: rest) finish) : token.NextTo text next := by
  cases tiles with
  | more _ _ _ _ _ later =>
    cases later with
    | more behind gap _ _ _ _ =>
      refine ⟨behind, fun c found => .inl (gap c found), ?_⟩
      have noFeed : '\n' ∉ sliceOf text token.stop next.start.offset := fun found =>
        absurd (gap _ found) (by decide)
      rw [List.count_eq_zero_of_not_mem noFeed]
      exact Nat.zero_le 1

/-- Only blanks and a line feed stand between two tokens with a line feed between them. -/
theorem nextTo_feed {token feed next : Token} {rest : List Token} (isFeed : feed.kind = .newline)
    (tiles : Tiles text start (token :: feed :: next :: rest) finish) : token.NextTo text next := by
  cases tiles with
  | more _ _ _ _ _ later =>
    cases later with
    | more behindToken gap filled _ spelled later =>
      cases later with
      | more behindFeed nextGap _ _ _ _ =>
        have slice : sliceOf text feed.start.offset feed.stop = ['\n'] :=
          spelled.slice_of_newline isFeed
        have whole : sliceOf text token.stop next.start.offset =
            sliceOf text token.stop feed.start.offset ++ ('\n' ::
              sliceOf text feed.stop next.start.offset) := by
          rw [← sliceOf_append_sliceOf text behindToken (by omega),
            ← sliceOf_append_sliceOf text (Nat.le_of_lt filled) behindFeed, slice]
          rfl
        have noFeed : '\n' ∉ sliceOf text token.stop feed.start.offset := fun found =>
          absurd (gap _ found) (by decide)
        have noNextFeed : '\n' ∉ sliceOf text feed.stop next.start.offset := fun found =>
          absurd (nextGap _ found) (by decide)
        refine ⟨by omega, ?_, ?_⟩
        · rw [whole]
          intro c found
          rcases List.mem_append.mp found with found | found
          · exact .inl (gap c found)
          rcases List.mem_cons.mp found with rfl | found
          · exact .inr rfl
          · exact .inl (nextGap c found)
        · rw [whole, List.count_append, List.count_cons_self,
            List.count_eq_zero_of_not_mem noFeed, List.count_eq_zero_of_not_mem noNextFeed]

end Tiles

/-- The lines of docs begin with the first of them, and without docs with what they document. -/
theorem DocLines.exists_head {docs lines : List Token} (docLines : DocLines docs lines)
    (first : Token) (later : List Token) :
    ∃ head otherDocs otherLines, docs ++ [first] = head :: otherDocs ∧
      lines ++ first :: later = head :: otherLines := by
  cases docLines with
  | none => exact ⟨first, [], later, rfl, rfl⟩
  | comment _ _ => exact ⟨_, _, _, rfl, rfl⟩
  | line _ _ _ => exact ⟨_, _, _, rfl, rfl⟩

/-- Docs stand one below the other and directly above what they document. -/
theorem DocLines.isChain {text : List Char} {docs lines later : List Token} {first : Token}
    {start finish : Nat} (docLines : DocLines docs lines)
    (tiles : Tiles text start (lines ++ first :: later) finish) :
    (docs ++ [first]).IsChain (Token.NextTo text) := by
  induction docLines generalizing start with
  | none => exact .singleton first
  | @comment token docs lines _ docLines inductionHypothesis =>
    obtain ⟨head, otherDocs, otherLines, docsSplit, linesSplit⟩ := docLines.exists_head first later
    obtain ⟨_, -, behind⟩ := Tiles.exists_of_append
      (show Tiles text start ([token] ++ (lines ++ first :: later)) finish from tiles)
    have chain := inductionHypothesis behind
    rw [List.cons_append, linesSplit] at tiles
    rw [List.cons_append, docsSplit] at *
    exact .cons_cons tiles.nextTo chain
  | @line token feed docs lines _ isFeed docLines inductionHypothesis =>
    obtain ⟨head, otherDocs, otherLines, docsSplit, linesSplit⟩ := docLines.exists_head first later
    obtain ⟨_, -, behind⟩ := Tiles.exists_of_append
      (show Tiles text start ([token, feed] ++ (lines ++ first :: later)) finish from tiles)
    have chain := inductionHypothesis behind
    rw [List.cons_append, List.cons_append, linesSplit] at tiles
    rw [List.cons_append, docsSplit] at *
    exact .cons_cons (tiles.nextTo_feed isFeed) chain

namespace Tiling

variable {text : List Char} {tokens : List Token}

/-- No token ends before it starts. -/
theorem forward (tiling : Tiling text tokens) {token : Token} (isMember : token ∈ tokens) :
    token.start.offset ≤ token.stop := by
  by_cases atEnd : token.kind = .endOfText
  · obtain ⟨others, finish, rfl, -, start, stop, goesOn⟩ := tiling.ended
    rcases List.mem_append.mp isMember with isOther | isFinish
    · exact absurd atEnd (goesOn token isOther)
    · rw [List.mem_singleton.mp isFinish, start, stop]
  · exact Nat.le_of_lt (tiling.filled token isMember atEnd).1

/-- A line feed stands between a place in front of its token and one behind it. -/
theorem feed_mem (tiling : Tiling text tokens) {feed : Token} (isMember : feed ∈ tokens)
    (isFeed : feed.kind = .newline) {start stop : Nat} (before : start ≤ feed.start.offset)
    (behind : feed.stop ≤ stop) : '\n' ∈ sliceOf text start stop := by
  have spelled := tiling.spelled feed isMember (by simp [isFeed])
  have slice : sliceOf text feed.start.offset feed.stop = ['\n'] :=
    spelled.slice_of_newline isFeed
  apply mem_sliceOf_of_le before behind
  rw [slice]
  exact List.mem_singleton_self _

/-- Tokens from some token on do not stand in front of it. -/
theorem not_before (tiling : Tiling text tokens) {before later : List Token} {token other : Token}
    (split : tokens = before ++ token :: later) (goesOn : token.kind ≠ .endOfText)
    (isOther : other ∈ token :: later) : token.start.offset < other.stop := by
  have ordered := tiling.ordered
  rw [split, List.pairwise_append] at ordered
  obtain ⟨filled, -⟩ := tiling.filled token (by simp [split]) goesOn
  rcases List.mem_cons.mp isOther with rfl | isLater
  · exact filled
  · have apart := (List.pairwise_cons.mp ordered.2.1).1 other isLater
    have length := tiling.forward (show other ∈ tokens by simp [split, isLater])
    omega

/-- A token that precedes one behind a run of spacing stands in front of the run, if it is not
spacing itself. -/
theorem mem_passed (tiling : Tiling text tokens) {passed run later : List Token}
    {token other : Token} (split : tokens = passed ++ run ++ token :: later)
    (goesOn : token.kind ≠ .endOfText) (spacing : ∀ other ∈ run, other.isSpacing = true)
    (isOther : other ∈ tokens) (before : other.stop ≤ token.start.offset)
    (isConstruct : other.isSpacing = false) : other ∈ passed := by
  rw [split] at isOther
  rcases List.mem_append.mp isOther with isBefore | isBehind
  · rcases List.mem_append.mp isBefore with isPassed | isSpacing
    · exact isPassed
    · simp [spacing other isSpacing] at isConstruct
  · have behind := tiling.not_before split goesOn isBehind
    omega

/-- In front of the last token that has passed stand the others, and it stands in front of a later
one. -/
theorem ordered_around (tiling : Tiling text tokens) {init run later : List Token}
    {last token : Token} (split : tokens = init ++ [last] ++ run ++ token :: later) :
    (∀ first ∈ init, first.stop ≤ last.start.offset) ∧ last.stop ≤ token.start.offset := by
  have ordered := tiling.ordered
  rw [split, List.append_assoc, List.pairwise_append] at ordered
  obtain ⟨passedOrdered, -, apart⟩ := ordered
  refine ⟨fun first isFirst => ?_, apart last (by simp) token (by simp)⟩
  exact (List.pairwise_append.mp passedOrdered).2.2 first isFirst last (List.mem_singleton_self _)

/-- Behind a bracket on the line of a token there are comments only, if the run between them is
spacing. -/
theorem trailsBracket_of_last (tiling : Tiling text tokens) {init run later : List Token}
    {last token : Token} (split : tokens = init ++ [last] ++ run ++ token :: later)
    (goesOn : token.kind ≠ .endOfText) (spacing : ∀ other ∈ run, other.isSpacing = true)
    (isBracket : last.isBracket = true)
    (noFeed : '\n' ∉ sliceOf text last.stop token.start.offset) :
    TrailsBracket text tokens token := by
  have isLast : last ∈ tokens := by simp [split]
  obtain ⟨beforeLast, beforeToken⟩ := tiling.ordered_around split
  refine ⟨last, isLast, isBracket, ⟨beforeToken, noFeed⟩, ?_⟩
  intro inner isInner behind before
  by_contra noComment
  have noBreak : inner.kind ≠ .newline := fun isFeed =>
    noFeed (tiling.feed_mem isInner isFeed behind before)
  have isConstruct : inner.isSpacing = false :=
    Bool.eq_false_iff.mpr fun isSpacing => (Token.isSpacing_iff.mp isSpacing).elim noBreak noComment
  have length := tiling.forward isInner
  have goesOnLast : last.kind ≠ .endOfText := fun atEnd => by
    simp [Token.isBracket, atEnd] at isBracket
  obtain ⟨filled, -⟩ := tiling.filled last isLast goesOnLast
  rcases List.mem_append.mp (tiling.mem_passed split goesOn spacing isInner before isConstruct)
    with isFirst | isSame
  · have := beforeLast inner isFirst
    omega
  · rw [List.mem_singleton.mp isSame] at behind
    omega

/-- A comment in a run of spacing behind a bracket or a line feed has its line to itself unless
it stands behind the bracket. -/
theorem standsAlone_iff (tiling : Tiling text tokens) {passed run later : List Token}
    {token : Token} (split : tokens = passed ++ run ++ token :: later)
    (goesOn : token.kind ≠ .endOfText) (spacing : ∀ other ∈ run, other.isSpacing = true)
    (between : ∀ other ∈ passed.getLast?, other.isBoundary = true) :
    StandsAlone text tokens token ↔ ¬TrailsBracket text tokens token := by
  constructor
  · rintro alone ⟨bracket, isToken, isBracket, precedes, -⟩
    rcases alone bracket isToken precedes with kind | kind <;>
      simp [Token.isBracket, kind] at isBracket
  intro noBracket other isOther precedes
  by_contra isConstruct
  have noSpacing : other.isSpacing = false :=
    Bool.eq_false_iff.mpr fun isSpacing => isConstruct (Token.isSpacing_iff.mp isSpacing).symm
  have inPassed := tiling.mem_passed split goesOn spacing isOther precedes.1 noSpacing
  obtain ⟨init, last, rfl⟩ : ∃ init last, passed = init ++ [last] :=
    ⟨_, _, (List.dropLast_append_getLast (List.ne_nil_of_mem inPassed)).symm⟩
  have isLast : last ∈ tokens := by simp [split]
  obtain ⟨beforeLast, beforeToken⟩ := tiling.ordered_around split
  have length := tiling.forward isLast
  have boundary : last.isBoundary = true := between last (by simp)
  rw [Token.isBoundary, Bool.or_eq_true] at boundary
  rcases boundary with isBracket | isFeed
  · -- The line goes on behind a bracket: up to the token there are comments only.
    have otherBefore : other.stop ≤ last.stop := by
      rcases List.mem_append.mp inPassed with isFirst | isSame
      · have := beforeLast other isFirst
        omega
      · rw [List.mem_singleton.mp isSame]
    exact noBracket (tiling.trailsBracket_of_last split goesOn spacing isBracket fun found =>
      precedes.2 (mem_sliceOf_of_le otherBefore (Nat.le_refl _) found))
  · -- A line feed would stand between the two.
    have lastFeed : last.kind = .newline := by simpa using isFeed
    rcases List.mem_append.mp inPassed with isFirst | isSame
    · exact precedes.2 (tiling.feed_mem isLast lastFeed (beforeLast other isFirst) beforeToken)
    · rw [List.mem_singleton.mp isSame] at isConstruct
      exact isConstruct (.inr lastFeed)

end Tiling

/-- What stands directly above a token in the tokens of a text does so in the text. -/
theorem Item.Documented.commented {text : List Char} {tokens : List Token} {finish : Token}
    {item : Item} {remarks : Remarks} {last : Nat}
    (documented : item.Documented text tokens remarks) (tiles : Tiles text 0 tokens last)
    (tiling : Tiling text (tokens ++ [finish]))
    (attached : ∀ token ∈ remarks.comments, token ∈ tokens) :
    item.Commented text (tokens ++ [finish]) remarks := by
  obtain ⟨passed, skipped, lines, later, split, spacing, docLines, between⟩ := documented.above
  constructor
  case docs => exact documented.docs
  case comment => exact documented.comment
  case areComments =>
    intro token isAttached
    exact ⟨List.mem_append_left _ (attached token isAttached),
      documented.areComments token isAttached⟩
  case read =>
    obtain ⟨stream, behind, ended, ahead, suffix, read⟩ := documented.read
    exact ⟨stream, behind, ended, ahead, suffix.isInfix.trans (List.infix_append' [] _ _), read⟩
  case above =>
    rw [split, ← List.append_assoc, List.append_assoc] at tiles
    obtain ⟨_, -, behind⟩ := tiles.exists_of_append
    exact docLines.isChain behind
  case alone =>
    intro token isDoc
    have isLine := docLines.sublist.subset isDoc
    obtain ⟨before, rest, linesSplit⟩ := List.append_of_mem isLine
    have run : ∀ other ∈ skipped ++ before, other.isSpacing = true := by
      intro other isMember
      rcases List.mem_append.mp isMember with isSkipped | isBefore
      · exact spacing other isSkipped
      · exact docLines.isSpacing other (linesSplit ▸ List.mem_append_left _ isBefore)
    have whole : tokens ++ [finish] =
        passed ++ (skipped ++ before) ++ token :: (rest ++ remarks.first :: later ++ [finish]) := by
      simp [split, linesSplit]
    have goesOn : token.kind ≠ .endOfText := by simp [docLines.isComment token isDoc]
    apply tiling.standsAlone_iff whole goesOn run
    rcases between with none | between
    · simp [linesSplit] at none
    · exact between

namespace Document

/-- One more declaration adds its items. -/
theorem items_add (document : Document) (declaration : Declaration) :
    (document.add declaration).items.Perm (document.items ++ declaration.items) := by
  cases declaration with
  | types decls =>
    simp only [items, add, Declaration.items, List.flatMap_append, List.append_assoc]
    apply List.Perm.append_left
    exact List.perm_append_comm
  | group name routes => simp [items, add, Declaration.items]
  | _ => simp [items, add, Declaration.items]

/-- The items of a document are those of its declarations. -/
theorem items_ofDeclarations (source : Option Path) (declarations : List Declaration) :
    (ofDeclarations source declarations).items.Perm (declarations.flatMap Declaration.items) := by
  have later (document : Document) : (declarations.foldl add document).items.Perm
      (document.items ++ declarations.flatMap Declaration.items) := by
    induction declarations generalizing document with
    | nil => simp
    | cons declaration declarations inductionHypothesis =>
      refine (inductionHypothesis (document.add declaration)).trans ?_
      rw [List.flatMap_cons, ← List.append_assoc]
      exact (document.items_add declaration).append_right _
  exact later { source }

/-- Every item of a description comes with the comments attached to it: its docs stand directly
above it, each of them has its line to itself unless it stands behind a bracket, and no comment
is attached twice. -/
theorem exists_remarks {file : Path} {text : List Char} {document : Document}
    (read : parse ⟨file, text⟩ = .ok document) :
    ∃ tokens remarks, tokenize text = .ok tokens ∧
      List.Forall₂ (Item.Commented text tokens) document.items remarks ∧
      (remarks.flatMap Remarks.comments).Nodup := by
  obtain ⟨tokens, finish, declarations, left, lexed, ends, -, readAll, -, rfl⟩ :=
    exists_declarations_of_parse read
  have tiling := tokenize_tiles lexed
  obtain ⟨others, place, same, -, last, tiles, -, -⟩ := exists_tiles_of_tokenize lexed
  obtain ⟨rfl, -⟩ := List.append_inj' same rfl
  have ended : Stream.Ended ⟨tokens, finish, 0⟩ := ends
  have start : Between [] ⟨tokens, finish, 0⟩ := .inl (by simp)
  obtain ⟨taken, attached, split, sublist, documented⟩ :=
    Rule.documents_declarations [] _ declarations left ended start readAll
  have inText : (attached.flatMap Remarks.comments).Sublist tokens := by
    rw [show tokens = taken ++ left.ahead from split]
    exact sublist.trans (List.sublist_append_left _ _)
  have distinct : tokens.Nodup := by
    apply tiles.ordered.imp_of_mem
    rintro earlier later isEarlier - apart rfl
    have filled := (tiles.spelled earlier isEarlier).1
    omega
  have commented : List.Forall₂ (Item.Commented text (tokens ++ [finish]))
      (declarations.flatMap Declaration.items) attached := by
    rw [List.forall₂_iff_zip]
    refine ⟨documented.length_eq, fun {item remarks} isPair => ?_⟩
    apply (List.forall₂_zip documented isPair).commented tiles tiling
    intro token isAttached
    have isRemarks := (List.of_mem_zip isPair).2
    exact inText.subset (List.mem_flatMap.mpr ⟨remarks, isRemarks, isAttached⟩)
  obtain ⟨remarks, inOrder, permuted⟩ :=
    List.perm_comp_forall₂ (items_ofDeclarations (some file) declarations) commented
  refine ⟨_, remarks, lexed, inOrder, ?_⟩
  exact (permuted.flatMap_right Remarks.comments).nodup_iff.mpr (inText.nodup distinct)

/-- The comment behind the brace and the one below it are docs, the one behind the member is its
comment. -/
theorem exists_remarks_member :
    let file : Path := Path.ofString "a.api"
    let text := "type User \x7b // c\n // d\n Name string // e\n\x7d\n".toList
    let name : Member :=
      { name := "Name", type := .ofName "string", comment := "// e", docs := ["// c", "// d"] }
    let document : Document := { types := [.struct "User" [name] []], source := some file }
    parse ⟨file, text⟩ = .ok document ∧
      ∃ tokens remarks, tokenize text = .ok tokens ∧
        List.Forall₂ (Item.Commented text tokens) document.items remarks ∧
        (remarks.flatMap Remarks.comments).Nodup := by
  intro file text name document
  have read : parse ⟨file, text⟩ = .ok document := by decide +kernel
  exact ⟨read, exists_remarks read⟩

/-- Not all docs have their lines to themselves. -/
theorem not_forall_standsAlone :
    ¬∀ (file : Path) (text : List Char) (document : Document) (tokens : List Token),
      parse ⟨file, text⟩ = .ok document → tokenize text = .ok tokens →
      ∀ item ∈ document.items, ∀ doc ∈ item.docs, ∃ token ∈ tokens,
        token.kind = .comment ∧ token.text = doc ∧ StandsAlone text tokens token := by
  intro claim
  let file : Path := Path.ofString "a.api"
  let text := "type User \x7b // c\n Name string\n\x7d\n".toList
  let name : Member := { name := "Name", type := .ofName "string", docs := ["// c"] }
  let tokens : List Token :=
    [⟨.keyword .type, "type", ⟨0, 1, 1⟩, 4⟩, ⟨.identifier, "User", ⟨5, 1, 6⟩, 9⟩,
     ⟨.mark .leftBrace, "\x7b", ⟨10, 1, 11⟩, 11⟩, ⟨.comment, "// c", ⟨12, 1, 13⟩, 16⟩,
     ⟨.newline, "\\n", ⟨16, 1, 17⟩, 17⟩, ⟨.identifier, "Name", ⟨18, 2, 2⟩, 22⟩,
     ⟨.identifier, "string", ⟨23, 2, 7⟩, 29⟩, ⟨.newline, "\\n", ⟨29, 2, 13⟩, 30⟩,
     ⟨.mark .rightBrace, "\x7d", ⟨30, 3, 1⟩, 31⟩, ⟨.newline, "\\n", ⟨31, 3, 2⟩, 32⟩,
     ⟨.endOfText, "", ⟨32, 4, 1⟩, 32⟩]
  have read : parse ⟨file, text⟩ =
      .ok { types := [.struct "User" [name] []], source := some file } := by
    decide +kernel
  have lexed : tokenize text = .ok tokens := by decide +kernel
  have isItem : Item.member name ∈
      Document.items { types := [.struct "User" [name] []], source := some file } := by
    simp [items, TypeDecl.items, TypeDecl.inside]
  obtain ⟨token, isToken, isComment, -, alone⟩ :=
    claim file text _ tokens read lexed _ isItem "// c" (List.mem_singleton_self _)
  have onlyOne : ∀ token ∈ tokens, token.kind = .comment → ¬StandsAlone text tokens token := by
    decide +kernel
  exact onlyOne token isToken isComment alone

end Document

end ApiDescription
