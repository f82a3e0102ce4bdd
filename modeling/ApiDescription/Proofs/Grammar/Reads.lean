import ApiDescription.Proofs.Grammar.Progress
import ApiDescription.Proofs.Token.Pieces

/-!
# Rules on written pieces

`Reads` says what a rule answers on the tokens of written pieces, whatever stands
behind them as long as it begins with a suitable token. Pieces read by one rule and
then by another are read by both in turn, so that the constructs of the grammar are
put together as they are written. `Collects` says the same of the rounds of a loop.
-/

namespace ApiDescription

open Piece

/-- The kind of the first token of pieces, if `after` is the kind of the token behind them. -/
def Piece.firstKind : List Piece → (after : Kind) → Kind
  | [], after => after
  | .blank :: rest, after => firstKind rest after
  | .token kind _ _ :: _, _ => kind

section FirstKind

variable (rest : List Piece) (after : Kind)

@[simp] theorem Piece.firstKind_blank : firstKind (.blank :: rest) after = firstKind rest after :=
  rfl

@[simp] theorem Piece.firstKind_feed : firstKind (feed :: rest) after = .newline := rfl

@[simp] theorem Piece.firstKind_mark (found : Mark) :
    firstKind (mark found :: rest) after = .mark found := rfl

@[simp] theorem Piece.firstKind_keyword (word : Keyword) :
    firstKind (keyword word :: rest) after = .keyword word := rfl

@[simp] theorem Piece.firstKind_marker (found : Marker) :
    firstKind (marker found :: rest) after = .marker found := rfl

@[simp] theorem Piece.firstKind_quoted (text : Text) :
    firstKind (quoted text :: rest) after = .quotedText := rfl

end FirstKind

/-- The next token is the first one of the pieces ahead. -/
theorem Stream.kind_current_tokensAt (place : Location) (pieces : List Piece) (more : List Token)
    (finish : Token) (position further : Nat) :
    (Stream.current ⟨tokensAt place pieces ++ more, finish, position⟩).kind =
      firstKind pieces (Stream.current ⟨more, finish, further⟩).kind := by
  induction pieces generalizing place with
  | nil => rfl
  | cons piece rest inductionHypothesis =>
    cases piece with
    | blank => exact inductionHypothesis _
    | token kind slice value => rfl

namespace Rule

variable {α β : Type} {place : Location} {before between : Kind → Prop}

/-- Whatever token comes next. -/
def Anything (_ : Kind) : Prop := True

/-- A token comes next that is no spacing. -/
def NotSpacing (next : Kind) : Prop := next ≠ .newline ∧ next ≠ .comment

/-- A keyword is no spacing. -/
theorem notSpacing_keyword (word : Keyword) : NotSpacing (.keyword word) := by simp [NotSpacing]

/-- A marker is no spacing. -/
theorem notSpacing_marker (found : Marker) : NotSpacing (.marker found) := by simp [NotSpacing]

/-- What a rule reads from pieces that are written from a place on, if the token behind them is
of a suitable kind: it answers a value and stops behind the pieces. -/
def Reads (place : Location) (rule : Rule α) (pieces : List Piece) (value : α)
    (before : Kind → Prop) : Prop :=
  ∀ more finish position, finish.kind = .endOfText →
    before (Stream.current ⟨more, finish, position⟩).kind →
      ∃ further, rule ⟨tokensAt place pieces ++ more, finish, position⟩ =
        .ok value ⟨more, finish, further⟩

namespace Reads

/-- An answer is read from nothing. -/
theorem pure (value : α) : Reads place (pure value) [] value before :=
  fun _ _ position _ _ => ⟨position, rfl⟩

/-- A rule that is read with what comes next in a wider class. -/
theorem weaken {rule : Rule α} {pieces : List Piece} {value : α}
    (read : Reads place rule pieces value between) (narrow : ∀ kind, before kind → between kind) :
    Reads place rule pieces value before :=
  fun more finish position ended next => read more finish position ended (narrow _ next)

/-- Blanks are not read. -/
theorem blank {rule : Rule α} {pieces : List Piece} {value : α}
    (read : Reads (place.next ' ') rule pieces value before) :
    Reads place rule (.blank :: pieces) value before := read

/-- Two rules in turn read the pieces of both. -/
theorem bind {first : Rule α} {second : α → Rule β} {start rest : List Piece} {value : α}
    {answer : β} (read : Reads place first start value between)
    (later : Reads (place.after (textOf start)) (second value) rest answer before)
    (leads : ∀ kind, before kind → between (firstKind rest kind)) :
    Reads place (first >>= second) (start ++ rest) answer before := by
  intro more finish position ended next
  obtain ⟨middle, firstRead⟩ := read (tokensAt (place.after (textOf start)) rest ++ more) finish
    position ended (by
      rw [Stream.kind_current_tokensAt _ _ _ _ _ position]
      exact leads _ next)
  obtain ⟨further, laterRead⟩ := later more finish middle ended next
  refine ⟨further, ?_⟩
  rw [tokensAt_append, List.append_assoc, bind_apply, firstRead]
  exact laterRead

/-- A value is computed from what has been read. -/
theorem map {rule : Rule α} {pieces : List Piece} {value : α}
    (read : Reads place rule pieces value before) {answer : α → β} {result : β}
    (same : answer value = result) :
    Reads place (rule >>= fun found => Pure.pure (answer found)) pieces result before := by
  intro more finish position ended next
  obtain ⟨further, found⟩ := read more finish position ended next
  exact ⟨further, by rw [bind_apply, found, ← same]; rfl⟩

/-- A rule that reads one token, and another one behind it. -/
theorem bind_token {first : Rule α} {second : α → Rule β} {piece : Piece} {rest : List Piece}
    {value : α} {answer : β} (read : Reads place first [piece] value Anything)
    (later : Reads (place.after piece.chars) (second value) rest answer before) :
    Reads place (first >>= second) (piece :: rest) answer before := by
  change Reads place (first >>= second) ([piece] ++ rest) answer before
  refine read.bind ?_ fun _ _ => trivial
  rw [textOf_cons, textOf_nil, List.append_nil]
  exact later

/-- A rule that only looks at what comes next, and another one behind it. -/
theorem bind_peek {first : Rule α} {second : α → Rule β} {pieces : List Piece} {value : α}
    {answer : β} (read : Reads place first [] value between)
    (later : Reads place (second value) pieces answer before)
    (leads : ∀ kind, before kind → between (firstKind pieces kind)) :
    Reads place (first >>= second) pieces answer before := by
  change Reads place (first >>= second) ([] ++ pieces) answer before
  exact read.bind later leads

end Reads

/-- A rule that only looks at what comes next reads nothing. -/
theorem Reads.peek {rule : Rule α} {value : α}
    (looks : ∀ stream : Stream, before stream.current.kind → rule stream = .ok value stream) :
    Reads place rule [] value before :=
  fun _ _ position _ next => ⟨position, looks _ next⟩

/-- A rule that takes the next token reads it. -/
theorem Reads.take {rule : Rule α} {kind : Kind} {slice : List Char} {value : String} {answer : α}
    (takes : ∀ stream : Stream,
      stream.current = ⟨kind, value, place, (place.after slice).offset⟩ →
        rule stream = .ok answer stream.next) :
    Reads place rule [.token kind slice value] answer Anything :=
  fun _ _ position _ _ => ⟨position + 1, takes _ rfl⟩

section Elements

variable (kind : Kind) (slice : List Char) (value : String)

/-- The next token. -/
theorem reads_advance :
    Reads place advance [.token kind slice value]
      ⟨kind, value, place, (place.after slice).offset⟩ Anything :=
  .take fun stream ahead => by rw [advance_apply, ahead]

/-- A token of the kind that has to come. -/
theorem reads_expect :
    Reads place (expect kind) [.token kind slice value]
      ⟨kind, value, place, (place.after slice).offset⟩ Anything :=
  .take fun stream ahead => by rw [expect_apply, ahead]; exact if_pos rfl

/-- A token that is a name. -/
theorem reads_expectName
    (name : Token.isName ⟨kind, value, place, (place.after slice).offset⟩ = true) :
    Reads place expectName [.token kind slice value]
      ⟨kind, value, place, (place.after slice).offset⟩ Anything :=
  .take fun stream ahead => by rw [expectName_apply, ahead]; exact if_pos name

/-- A token that is accepted. -/
theorem reads_accepts : Reads place (accepts kind) [.token kind slice value] true Anything :=
  .take fun stream ahead => by rw [accepts_apply, ahead]; exact if_pos rfl

/-- A token that is not accepted. -/
theorem reads_accepts_of_ne : Reads place (accepts kind) [] false (· ≠ kind) :=
  .peek fun stream next => by rw [accepts_apply]; exact if_neg next

/-- Whether the next token is of a kind, if it is. -/
theorem reads_sees : Reads place (sees kind) [] true (· = kind) :=
  .peek fun stream next => by rw [sees_apply, decide_eq_true next]

/-- Whether the next token is of a kind, if it is of another one. -/
theorem reads_sees_of_ne : Reads place (sees kind) [] false (· ≠ kind) :=
  .peek fun stream next => by rw [sees_apply, decide_eq_false next]

/-- Whether the next token is of one of several kinds, if it is. -/
theorem reads_seesAny (kinds : List Kind) : Reads place (seesAny kinds) [] true (· ∈ kinds) :=
  .peek fun stream next => by rw [seesAny_apply, List.contains_iff_mem.mpr next]

/-- Whether the next token is of one of several kinds, if it is of none of them. -/
theorem reads_seesAny_of_not_mem (kinds : List Kind) :
    Reads place (seesAny kinds) [] false (· ∉ kinds) :=
  .peek fun stream next => by
    rw [seesAny_apply, Bool.eq_false_iff.mpr (mt List.contains_iff_mem.mp next)]

/-- Looking at the next token before it is read. -/
theorem Reads.current_bind {second : Token → Rule β} {pieces rest : List Piece} {answer : β}
    (begins : pieces = .token kind slice value :: rest)
    (later : ∀ token : Token, token.start = place →
      Reads place (second token) pieces answer before) :
    Reads place (current >>= second) pieces answer before := by
  subst begins
  exact later ⟨kind, value, place, (place.after slice).offset⟩ rfl

end Elements

/-- The end of a line. -/
theorem reads_lineEnd : Reads place lineEnd [feed] () Anything :=
  .take fun stream ahead => by rw [lineEnd_apply, ahead]; exact if_pos rfl

/-- A token that stands for itself has the text it was written for. -/
theorem text_plain {text : Text} (textual : text.isTextual = true) (kind : Kind)
    (start : Location) (stop : Nat) :
    Token.text ⟨kind, String.ofList text.chars, start, stop⟩ = text := by
  rw [Token.text, Text.ofString, String.toList_ofList, Text.ofChars_chars textual]

/-- The comment behind a construct, if there is one. -/
theorem reads_trailingComment {comment : Text} (textual : comment.isTextual = true) {line : Nat}
    (sameLine : comment ≠ [] → place.line = line) :
    Reads place (trailingComment line) (aside .comment comment) comment (· = .newline) := by
  unfold aside
  split
  · next absent =>
    subst absent
    refine .peek fun stream next => ?_
    rw [trailingComment_apply, next]
    exact if_neg fun found => nomatch found.1
  · next present =>
    refine Reads.weaken (.blank (.take fun stream ahead => ?_)) fun _ _ => trivial
    rw [trailingComment_apply, ahead, if_pos ⟨rfl, sameLine present⟩, text_plain textual]

/-- The text of the next token, if it is of a kind. -/
theorem reads_textIf {text : Text} (textual : text.isTextual = true) (kind : Kind) :
    Reads place (textIf kind) [plain kind text] text Anything :=
  .take fun stream ahead => by rw [textIf_apply, ahead, if_pos rfl, text_plain textual]

/-- No text, if the next token is of another kind. -/
theorem reads_textIf_of_ne (kind : Kind) : Reads place (textIf kind) [] [] (· ≠ kind) :=
  .peek fun stream next => by rw [textIf_apply]; exact if_neg next

/-- The text of a kind behind a construct, if there is one. -/
theorem reads_textIf_aside {text : Text} (textual : text.isTextual = true) (kind : Kind) :
    Reads place (textIf kind) (aside kind text) text (· ≠ kind) := by
  unfold aside
  split
  · next absent =>
    subst absent
    exact reads_textIf_of_ne kind
  · exact Reads.weaken (.blank (reads_textIf textual kind)) fun _ _ => trivial

/-- The run of spacing that docs are written as leaves these docs. -/
theorem docsOfRun_ofDocs {docs : List Text} (textual : ∀ doc ∈ docs, doc.isTextual = true)
    (place : Location) (seen : List Text) (feeds : Nat) :
    docsOfRun (tokensAt place (ofDocs docs)) seen feeds = seen.reverse ++ docs := by
  induction docs generalizing place seen feeds with
  | nil => simp [ofDocs, tokensAt, docsOfRun]
  | cons doc docs inductionHypothesis =>
    have later (place : Location) : docsOfRun (tokensAt place (ofDocs docs)) (doc :: seen) 1 =
        (doc :: seen).reverse ++ docs :=
      inductionHypothesis (fun other member => textual other (by simp [member])) place _ 1
    rw [ofDocs, List.flatMap_cons, ← ofDocs]
    simp only [plain, feed, List.cons_append, List.nil_append, tokensAt, docsOfRun, if_true,
      reduceCtorEq, if_false, later, text_plain (textual doc List.mem_cons_self),
      List.reverse_cons, List.append_assoc]

/-- Docs are spacing. -/
theorem isSpacing_ofDocs {docs : List Text} {token : Token}
    (member : token ∈ tokensAt place (ofDocs docs)) : token.isSpacing = true := by
  induction docs generalizing place with
  | nil => exact nomatch member
  | cons doc docs inductionHypothesis =>
    rw [ofDocs, List.flatMap_cons, ← ofDocs] at member
    simp only [plain, feed, List.cons_append, List.nil_append, tokensAt, List.mem_cons] at member
    rcases member with rfl | rfl | member
    · rfl
    · rfl
    · exact inductionHypothesis member

/-- Spacing is passed up to a token that is none. -/
theorem reads_spacing {pieces : List Piece}
    (spaces : ∀ token ∈ tokensAt place pieces, token.isSpacing = true) :
    Reads place spacing pieces (tokensAt place pieces) NotSpacing := by
  intro more finish position _ next
  have run : (tokensAt place pieces ++ more).takeWhile Token.isSpacing = tokensAt place pieces := by
    rw [List.takeWhile_append_of_pos spaces]
    cases more with
    | nil => simp
    | cons token more =>
      have goesOn : ¬token.isSpacing = true := by
        have noSpacing : NotSpacing token.kind := next
        unfold Token.isSpacing
        split <;> simp_all [NotSpacing]
      rw [List.takeWhile_cons_of_neg goesOn, List.append_nil]
  refine ⟨position + (tokensAt place pieces).length, ?_⟩
  rw [spacing]
  simp [run, Stream.skip]

/-- Docs are read as they are written. -/
theorem reads_docs {docs : List Text} (textual : ∀ doc ∈ docs, doc.isTextual = true) :
    Reads place Rule.docs (ofDocs docs) docs NotSpacing := by
  have spaces : ∀ token ∈ tokensAt place (ofDocs docs), token.isSpacing = true :=
    fun _ => isSpacing_ofDocs
  exact (reads_spacing spaces).map (docsOfRun_ofDocs textual place [] 0)

/-- Where no spacing comes next, there are no docs. -/
theorem reads_docs_nil (place : Location) : Reads place Rule.docs [] [] NotSpacing := by
  have none : Reads place Rule.docs (ofDocs []) [] NotSpacing := reads_docs (by simp)
  exact none

/-- A line feed is skipped. -/
theorem reads_skipSpacing : Reads place skipSpacing [feed] () NotSpacing := by
  have spaces : ∀ token ∈ tokensAt place [feed], token.isSpacing = true := by
    simp [feed, tokensAt, Token.isSpacing]
  rw [skipSpacing_eq]
  exact (reads_spacing spaces).map rfl

/-- Where no spacing comes next, none is skipped. -/
theorem reads_skipSpacing_nil : Reads place skipSpacing [] () NotSpacing := by
  have spaces : ∀ token ∈ tokensAt place [], token.isSpacing = true := by simp [tokensAt]
  rw [skipSpacing_eq]
  exact (reads_spacing spaces).map rfl

/-- An item of a loop is read as what leads up to it and the item. -/
theorem Reads.untilClosed {lead : Rule β} {closing : Kind} {fault : SyntaxError.Cause}
    {item : β → Rule α} {start rest : List Piece} {led : β} {value : α}
    (leadRead : Reads place lead start led between)
    (itemRead : Reads (place.after (textOf start)) (item led) rest value before)
    (leads : ∀ kind, before kind → between (firstKind rest kind) ∧
      firstKind rest kind ≠ closing ∧ firstKind rest kind ≠ .endOfText) :
    Reads place (untilClosed lead closing fault item) (start ++ rest) (some value) before := by
  unfold Rule.untilClosed
  refine leadRead.bind ?_ fun kind next => (leads kind next).1
  refine (reads_accepts_of_ne closing).bind_peek ?_ fun kind next => (leads kind next).2.1
  refine (reads_sees_of_ne .endOfText).bind_peek ?_ fun kind next => (leads kind next).2.2
  exact itemRead.map rfl

/-- A loop ends with the token that closes it. -/
theorem Reads.untilClosed_closing {lead : Rule β} {closing : Kind} {fault : SyntaxError.Cause}
    {item : β → Rule α} {slice : List Char} {value : String} {led : β}
    (leadRead : Reads place lead [] led NotSpacing) (noSpacing : NotSpacing closing) :
    Reads place (Rule.untilClosed lead closing fault item) [.token closing slice value] none
      Anything := by
  unfold Rule.untilClosed
  refine leadRead.bind_peek ?_ fun kind next => noSpacing
  exact (reads_accepts closing slice value).bind_token (.pure none)

/-- A rule that does not see line feeds in front of what it reads. -/
def SkipsFeeds (rule : Rule α) : Prop :=
  ∀ (token : Token) rest finish position, token.kind = .newline →
    rule ⟨token :: rest, finish, position⟩ = rule ⟨rest, finish, position + 1⟩

/-- A line feed in front of spacing is spacing. -/
theorem spacing_feed {token : Token} {rest : List Token} {finish : Token} {position : Nat}
    (newline : token.kind = .newline) :
    spacing ⟨token :: rest, finish, position⟩ =
      .ok (token :: rest.takeWhile Token.isSpacing)
        (Stream.skip ⟨rest, finish, position + 1⟩ (rest.takeWhile Token.isSpacing).length) := by
  have spaces : token.isSpacing = true := by simp [Token.isSpacing, newline]
  rw [spacing]
  simp [List.takeWhile_cons_of_pos spaces, Stream.skip, Nat.add_assoc, Nat.add_comm 1]

/-- What skips line feeds still does with more behind it. -/
theorem SkipsFeeds.bind {first : Rule α} (skips : SkipsFeeds first) (second : α → Rule β) :
    SkipsFeeds (first >>= second) := by
  intro token rest finish position newline
  rw [bind_apply, bind_apply, skips token rest finish position newline]

/-- Line feeds are skipped among spacing. -/
theorem skipsFeeds_skipSpacing : SkipsFeeds skipSpacing := by
  intro token rest finish position newline
  rw [skipSpacing_eq, bind_apply, spacing_feed newline]
  rfl

/-- Line feeds in front of docs belong to none of them. -/
theorem skipsFeeds_docs : SkipsFeeds Rule.docs := by
  intro token rest finish position newline
  rw [Rule.docs, bind_apply, spacing_feed newline, bind_apply, spacing]
  have first : docsOfRun (token :: rest.takeWhile Token.isSpacing) [] 0 =
      docsOfRun (rest.takeWhile Token.isSpacing) [] 0 := by
    have noComment : token.kind ≠ .comment := by simp [newline]
    rw [docsOfRun, if_neg noComment, if_pos rfl, docsOfRun_nil]
  simp only [first]

/-- The items that the rounds of a loop read from pieces. Behind them the loop goes on as in front
of what follows the pieces. -/
def Collects (place : Location) (round : Rule (Option α)) (pieces : List Piece) (items : List α)
    (before : Kind → Prop) : Prop :=
  ∀ more finish position, finish.kind = .endOfText →
    before (Stream.current ⟨more, finish, position⟩).kind →
      ∃ last further, Rounds round ⟨tokensAt place pieces ++ more, finish, position⟩ items last ∧
        round last = round ⟨more, finish, further⟩

namespace Collects

variable {round : Rule (Option α)}

/-- Nothing is read from nothing. -/
theorem nil : Collects place round [] [] before :=
  fun _ _ position _ _ => ⟨_, position, .none _, rfl⟩

/-- An empty line is passed. -/
theorem feed (skips : SkipsFeeds round) : Collects place round [.feed] [] before :=
  fun more finish position _ _ => ⟨_, position + 1, .none _, skips _ more finish position rfl⟩

/-- One item that takes its pieces. -/
theorem single {pieces : List Piece} {item : α}
    (read : Reads place round pieces (some item) before) :
    Collects place round pieces [item] before := by
  intro more finish position ended next
  obtain ⟨further, found⟩ := read more finish position ended next
  exact ⟨_, further, .single found, rfl⟩

/-- Items behind items. -/
theorem append {start rest : List Piece} {firsts seconds : List α}
    (earlier : Collects place round start firsts between)
    (later : Collects (place.after (textOf start)) round rest seconds before)
    (leads : ∀ kind, before kind → between (firstKind rest kind)) :
    Collects place round (start ++ rest) (firsts ++ seconds) before := by
  intro more finish position ended next
  obtain ⟨middle, passed, run, same⟩ := earlier
    (tokensAt (place.after (textOf start)) rest ++ more) finish position ended (by
      rw [Stream.kind_current_tokensAt _ _ _ _ _ position]
      exact leads _ next)
  obtain ⟨last, further, laterRun, laterSame⟩ := later more finish passed ended next
  obtain ⟨last', run', same'⟩ := Rounds.exists_of_round_eq same ⟨last, laterRun, rfl⟩
  refine ⟨last', further, ?_, same'.trans laterSame⟩
  rw [tokensAt_append, List.append_assoc]
  exact run.append run'

/-- One item that leaves the line feed behind it. -/
theorem line (skips : SkipsFeeds round) {pieces : List Piece} {item : α}
    (read : Reads place round pieces (some item) (· = .newline)) :
    Collects place round (pieces ++ [.feed]) [item] before := by
  have passed : Collects (place.after (textOf pieces)) round [.feed] [] before := feed skips
  exact (single read).append passed fun _ _ => rfl

/-- Items that are written one after the other. -/
theorem flatMap {γ : Type} {pieces : γ → List Piece} {item : γ → α} {written : List γ}
    (each : ∀ one ∈ written, ∀ place, Collects place round (pieces one) [item one] Anything) :
    Collects place round (written.flatMap pieces) (written.map item) Anything := by
  induction written generalizing place with
  | nil => exact nil
  | cons one written inductionHypothesis =>
    rw [List.flatMap_cons]
    refine (each one List.mem_cons_self place).append
      (inductionHypothesis fun other member => each other (List.mem_cons_of_mem _ member)) ?_
    exact fun _ _ => trivial

end Collects

/-- A loop reads its items and what ends it. -/
theorem Reads.many {round : Rule (Option α)} {start rest : List Piece} {items : List α}
    (shrinks : ShrinksWithin Stream.Ended round)
    (collects : Collects place round start items between)
    (ending : Reads (place.after (textOf start)) round rest none before)
    (leads : ∀ kind, before kind → between (firstKind rest kind)) :
    Reads place (many round) (start ++ rest) items before := by
  intro more finish position ended next
  obtain ⟨last, passed, run, same⟩ := collects
    (tokensAt (place.after (textOf start)) rest ++ more) finish position ended (by
      rw [Stream.kind_current_tokensAt _ _ _ _ _ position]
      exact leads _ next)
  obtain ⟨further, closed⟩ := ending more finish passed ended next
  refine ⟨further, ?_⟩
  rw [tokensAt_append, List.append_assoc]
  exact (many_eq_ok_iff shrinks
    (show Stream.Ended ⟨_, finish, position⟩ from ended)).mpr ⟨last, run, same.trans closed⟩

/-- The items of a loop are read up to the bracket that closes it. -/
theorem Reads.many_untilClosed {lead : Rule β} {closing : Mark} {fault : SyntaxError.Cause}
    {item : β → Rule α} {led : β} {pieces : List Piece} {items : List α}
    (skips : SkipsFeeds lead) (nothing : ∀ place, Reads place lead [] led NotSpacing)
    (shrinks : ShrinksWithin Stream.Ended (Rule.untilClosed lead (.mark closing) fault item))
    (collects : ∀ place, Collects place (Rule.untilClosed lead (.mark closing) fault item) pieces
      items Anything) :
    Reads place (ApiDescription.many (Rule.untilClosed lead (.mark closing) fault item))
      (feed :: (pieces ++ [mark closing])) items Anything := by
  have passed (place : Location) :
      Collects place (Rule.untilClosed lead (.mark closing) fault item) [feed] [] Anything :=
    .feed (skips.bind _)
  have all (place : Location) :
      Collects place (Rule.untilClosed lead (.mark closing) fault item) ([feed] ++ pieces) items
        Anything := (passed place).append (collects _) fun _ _ => trivial
  have ending (place : Location) :
      Reads place (Rule.untilClosed lead (.mark closing) fault item) [mark closing] none Anything :=
    (nothing place).untilClosed_closing ⟨nofun, nofun⟩
  change Reads place _ (([feed] ++ pieces) ++ [mark closing]) items Anything
  exact Reads.many shrinks (all _) (ending _) fun _ _ => trivial

end Rule

end ApiDescription
