import ApiDescription.Proofs.Grammar.Closing
import Mathlib.Data.List.Forall2
import Mathlib.Data.List.TakeWhile

/-!
# Comments that are attached

The docs of an item are comments of the run of spacing in front of it, and its trailing
comment stands behind it. `Documents` says of a rule that whatever it reads comes with the
tokens of all these comments, each of them used for one item only.
-/

namespace ApiDescription

/-- Anywhere in a stream. -/
def Anywhere (_ : List Token) (_ : Stream) : Prop := True

/-- Comments with at most one line feed behind each of them. -/
inductive DocLines : (docs lines : List Token) → Prop
  | none : DocLines [] []
  | comment {token : Token} {docs lines : List Token} (isComment : token.kind = .comment)
      (later : DocLines docs lines) : DocLines (token :: docs) (token :: lines)
  | line {token feed : Token} {docs lines : List Token} (isComment : token.kind = .comment)
      (isFeed : feed.kind = .newline) (later : DocLines docs lines) :
      DocLines (token :: docs) (token :: feed :: lines)

/-- Docs that stand directly above a token: between a construct that has ended and the token
there is spacing only, and it ends with the docs and no blank line. -/
inductive DirectlyAbove (tokens docs : List Token) (first : Token) : Prop
  | intro (passed skipped lines later : List Token)
      (split : tokens = passed ++ (skipped ++ lines) ++ first :: later)
      (spacing : ∀ token ∈ skipped, token.isSpacing = true) (docLines : DocLines docs lines)
      (between : skipped ++ lines = [] ∨ ∀ token ∈ passed.getLast?, token.isBoundary = true)

/-- An item of a description that may have docs. -/
inductive Item where
  | type (decl : TypeDecl)
  | member (member : Member)
  | route (route : Route)

namespace Item

/-- The docs of an item. -/
def docs : Item → List Text
  | .type (.struct _ _ docs) | .type (.alias _ _ docs) => docs
  | .member parts => parts.docs
  | .route parts => parts.docs

/-- The comment that trails an item; types have none. -/
def comment : Item → Text
  | .type _ => []
  | .member parts => parts.comment
  | .route parts => parts.comment

/-- An item is what is read at the head of a stream. A type that does not stand in a group is
read from the word `type` on. -/
def ReadFrom (source : List Char) (stream : Stream) : Item → Prop
  | .type decl =>
    (∃ next, Rule.typeBody (Item.type decl).docs stream = .ok decl next) ∨
      stream.current.kind = .keyword .type ∧
        ∃ next, Rule.typeBody (Item.type decl).docs stream.next = .ok decl next
  | .member parts => ∃ next, Rule.member parts.docs stream = .ok parts next
  | .route parts => ∃ next, Rule.route source parts.docs stream = .ok parts next

end Item

/-- The items inside a declaration. -/
def TypeDecl.inside : TypeDecl → List Item
  | .struct _ members _ => members.map .member
  | .alias .. => []

/-- A declaration and the items inside it. -/
def TypeDecl.items (decl : TypeDecl) : List Item := .type decl :: decl.inside

/-- The items of a declaration at the top level. -/
def Declaration.items : Declaration → List Item
  | .types decls => decls.flatMap TypeDecl.items
  | .group _ routes => routes.routes.map .route
  | _ => []

/-- The comments attached to an item, and the token it begins with. -/
structure Remarks where
  docs : List Token
  first : Token
  trailing : Option Token

/-- All comments attached to an item. -/
def Remarks.comments (remarks : Remarks) : List Token := remarks.docs ++ remarks.trailing.toList

/-- An item with the tokens its docs and its comment come from. -/
structure Item.Documented (source : List Char) (tokens : List Token) (item : Item)
    (remarks : Remarks) : Prop where
  docs : item.docs = remarks.docs.map Token.text
  comment : item.comment = (remarks.trailing.map Token.text).getD []
  areComments : ∀ token ∈ remarks.comments, token.kind = .comment
  above : DirectlyAbove tokens remarks.docs remarks.first
  read : ∃ stream later, stream.Ended ∧ stream.ahead = remarks.first :: later ∧
    stream.ahead <:+ tokens ∧ item.ReadFrom source stream

/-- Comments that are the docs of what comes next in a stream. -/
structure DocsOf (passed docs : List Token) (stream : Stream) : Prop where
  ended : stream.Ended
  ahead : stream.ahead ≠ []
  above : DirectlyAbove (passed ++ stream.ahead) docs stream.current

/-- The items that are read between two places of a stream, with the comments attached to them.
These are docs in front of the first place or stand between the places, and each of them is
attached only once. -/
def Attaches (source : List Char) (passed docs : List Token) (stream next : Stream)
    (items : List Item) : Prop :=
  ∃ taken attached, stream.ahead = taken ++ next.ahead ∧
    (attached.flatMap Remarks.comments).Sublist (docs ++ taken) ∧
    List.Forall₂ (Item.Documented source (passed ++ stream.ahead)) items attached

namespace DocLines

variable {docs lines : List Token}

theorem sublist (docLines : DocLines docs lines) : docs.Sublist lines := by
  induction docLines with
  | none => exact .slnil
  | comment _ _ inductionHypothesis => exact inductionHypothesis.cons_cons _
  | line _ _ _ inductionHypothesis => exact (inductionHypothesis.cons _).cons_cons _

theorem isComment (docLines : DocLines docs lines) : ∀ token ∈ docs, token.kind = .comment := by
  induction docLines with
  | none => simp
  | comment isComment _ inductionHypothesis | line isComment _ _ inductionHypothesis =>
    exact List.forall_mem_cons.mpr ⟨isComment, inductionHypothesis⟩

theorem isSpacing (docLines : DocLines docs lines) : ∀ token ∈ lines, token.isSpacing = true := by
  induction docLines with
  | none => simp
  | comment isComment _ inductionHypothesis =>
    exact List.forall_mem_cons.mpr ⟨by simp [Token.isSpacing, isComment], inductionHypothesis⟩
  | line isComment isFeed _ inductionHypothesis =>
    rw [List.forall_mem_cons, List.forall_mem_cons]
    exact ⟨by simp [Token.isSpacing, isComment], by simp [Token.isSpacing, isFeed],
      inductionHypothesis⟩

end DocLines

/-- What `docsOfRun` answers are texts of comments without a blank line between them. Either
they go on with the docs so far, or a blank line has dropped these. -/
theorem docsOfRun_cases (run : List Token) (spacing : ∀ token ∈ run, token.isSpacing = true)
    (before : List Text) (feeds : Nat) :
    (∃ docs lead lines, run = lead ++ lines ∧ DocLines docs lines ∧
      (lead = [] ∨ feeds = 0 ∧ ∃ feed : Token, feed.kind = .newline ∧ lead = [feed]) ∧
      docsOfRun run before feeds = before.reverse ++ docs.map Token.text) ∨
    ∃ docs skipped lines, run = skipped ++ lines ∧ DocLines docs lines ∧
      docsOfRun run before feeds = docs.map Token.text := by
  induction run generalizing before feeds with
  | nil => exact .inl ⟨[], [], [], rfl, .none, .inl rfl, by simp [docsOfRun]⟩
  | cons token run inductionHypothesis =>
    obtain ⟨isSpacing, laterSpacing⟩ := List.forall_mem_cons.mp spacing
    rw [docsOfRun]
    by_cases isComment : token.kind = .comment
    · rw [if_pos isComment]
      rcases inductionHypothesis laterSpacing (token.text :: before) 0 with
        ⟨docs, lead, lines, rfl, docLines, isLead, same⟩ |
        ⟨docs, skipped, lines, rfl, docLines, same⟩
      · left
        rcases isLead with rfl | ⟨-, feed, isFeed, rfl⟩
        · exact ⟨token :: docs, [], _, rfl, .comment isComment docLines, .inl rfl,
            same.trans (by simp)⟩
        · exact ⟨token :: docs, [], _, rfl, .line isComment isFeed docLines, .inl rfl,
            same.trans (by simp)⟩
      · right
        exact ⟨docs, token :: skipped, lines, rfl, docLines, same⟩
    · have isFeed := (Token.isSpacing_iff.mp isSpacing).resolve_right isComment
      rw [if_neg isComment]
      by_cases first : feeds = 0
      · rw [if_pos first]
        rcases inductionHypothesis laterSpacing before 1 with
          ⟨docs, lead, lines, rfl, docLines, isLead, same⟩ |
          ⟨docs, skipped, lines, rfl, docLines, same⟩
        · left
          obtain rfl : lead = [] := by simpa using isLead
          exact ⟨docs, [token], lines, rfl, docLines, .inr ⟨first, token, isFeed, rfl⟩, same⟩
        · right
          exact ⟨docs, token :: skipped, lines, rfl, docLines, same⟩
      · rw [if_neg first]
        right
        rcases inductionHypothesis laterSpacing [] (feeds + 1) with
          ⟨docs, lead, lines, rfl, docLines, isLead, same⟩ |
          ⟨docs, skipped, lines, rfl, docLines, same⟩
        · obtain rfl : lead = [] := by simpa using isLead
          exact ⟨docs, [token], lines, rfl, docLines, by simpa using same⟩
        · exact ⟨docs, token :: skipped, lines, rfl, docLines, same⟩

/-- The docs of a run are texts of comments at its end. -/
theorem exists_docLines (run : List Token) (spacing : ∀ token ∈ run, token.isSpacing = true) :
    ∃ docs skipped lines, run = skipped ++ lines ∧ DocLines docs lines ∧
      docsOfRun run [] 0 = docs.map Token.text := by
  rcases docsOfRun_cases run spacing [] 0 with
    ⟨docs, lead, lines, split, docLines, -, same⟩ | ⟨docs, skipped, lines, split, docLines, same⟩
  · exact ⟨docs, lead, lines, split, docLines, same⟩
  · exact ⟨docs, skipped, lines, split, docLines, same⟩

namespace Attaches

variable {source : List Char} {passed docs before taken : List Token}
  {stream middle next : Stream} {items others : List Item}

/-- Where no items are read, no comments are attached. -/
theorem nil (split : stream.ahead = taken ++ next.ahead) :
    Attaches source passed docs stream next [] :=
  ⟨taken, [], split, List.nil_sublist _, .nil⟩

/-- Tokens in front of what is read may hold its docs. -/
theorem behind {inner : List Token} (split : stream.ahead = before ++ middle.ahead)
    (used : inner.Sublist (docs ++ before))
    (attaches : Attaches source (passed ++ before) inner middle next items) :
    Attaches source passed docs stream next items := by
  obtain ⟨taken, attached, middleSplit, sublist, documented⟩ := attaches
  rw [List.append_assoc, ← split] at documented
  refine ⟨before ++ taken, attached, ?_, ?_, documented⟩
  · rw [split, middleSplit, List.append_assoc]
  · rw [← List.append_assoc]
    exact sublist.trans (used.append_right taken)

/-- Items that are read in turn. -/
theorem append (first : Attaches source passed docs stream middle items)
    (second : ∀ before, stream.ahead = before ++ middle.ahead →
      Attaches source (passed ++ before) [] middle next others) :
    Attaches source passed docs stream next (items ++ others) := by
  obtain ⟨before, attached, split, sublist, documented⟩ := first
  obtain ⟨taken, laterAttached, middleSplit, laterSublist, laterDocumented⟩ := second before split
  rw [List.append_assoc, ← split] at laterDocumented
  refine ⟨before ++ taken, attached ++ laterAttached, ?_, ?_, ?_⟩
  · rw [split, middleSplit, List.append_assoc]
  · rw [List.flatMap_append, ← List.append_assoc]
    exact sublist.append laterSublist
  · exact List.rel_append documented laterDocumented

/-- An item with its docs, and the items inside it. -/
theorem cons {item : Item} {first : Token}
    (documented : item.Documented source (passed ++ stream.ahead) ⟨docs, first, none⟩)
    (inside : Attaches source passed [] stream next items) :
    Attaches source passed docs stream next (item :: items) := by
  obtain ⟨taken, attached, split, sublist, insideDocumented⟩ := inside
  refine ⟨taken, ⟨docs, first, none⟩ :: attached, split, ?_, .cons documented insideDocumented⟩
  rw [List.flatMap_cons]
  apply List.Sublist.append _ sublist
  simp [Remarks.comments]

/-- An item with its docs and the comment behind it. -/
theorem single {item : Item} {first : Token} {trailing : Option Token} {behind : List Token}
    (split : stream.ahead = before ++ (trailing.toList ++ (behind ++ next.ahead)))
    (documented : item.Documented source (passed ++ stream.ahead) ⟨docs, first, trailing⟩) :
    Attaches source passed docs stream next [item] := by
  refine ⟨before ++ (trailing.toList ++ behind), [⟨docs, first, trailing⟩], ?_, ?_, ?_⟩
  · simp only [split, List.append_assoc]
  · rw [List.flatMap_singleton, Remarks.comments]
    apply List.Sublist.append_left
    exact (List.sublist_append_left _ _).trans (List.sublist_append_right _ _)
  · exact .cons documented .nil

end Attaches

/-- Docs are comments. -/
theorem DocsOf.isComment {passed docs : List Token} {stream : Stream}
    (docsOf : DocsOf passed docs stream) : ∀ token ∈ docs, token.kind = .comment := by
  obtain ⟨_, _, _, _, _, _, docLines, _⟩ := docsOf.above
  exact docLines.isComment

/-- An item that is read below its docs is documented by them and by the comment behind it. -/
theorem DocsOf.documented {source : List Char} {passed docs : List Token} {stream : Stream}
    (docsOf : DocsOf passed docs stream) {item : Item} {trailing : Option Token}
    (isComment : ∀ token ∈ trailing, token.kind = .comment)
    (sameDocs : item.docs = docs.map Token.text)
    (sameComment : item.comment = (trailing.map Token.text).getD [])
    (read : item.ReadFrom source stream) :
    item.Documented source (passed ++ stream.ahead) ⟨docs, stream.current, trailing⟩ := by
  obtain ⟨first, later, split⟩ := List.exists_cons_of_ne_nil docsOf.ahead
  constructor
  case docs => exact sameDocs
  case comment => exact sameComment
  case areComments =>
    intro token isAttached
    rcases List.mem_append.mp isAttached with isDoc | isTrailing
    · exact docsOf.isComment token isDoc
    · exact isComment token (by simpa using isTrailing)
  case above => exact docsOf.above
  case read =>
    refine ⟨stream, later, docsOf.ended, ?_, List.suffix_append _ _, read⟩
    rw [Stream.current_of_cons split]
    exact split

namespace Rule

variable {α β : Type}

/-- What a rule reads between constructs, or anywhere, comes with the tokens of all comments
attached to its items, taken by the rule in their order. -/
def Documents (source : List Char) (starts : List Token → Stream → Prop) (items : α → List Item)
    (rule : Rule α) : Prop :=
  ∀ passed stream value next, stream.Ended → starts passed stream → rule stream = .ok value next →
    Attaches source passed [] stream next (items value)

/-- The same of a rule below docs, which are used for the first item it reads or not at all. -/
def DocumentsBelow (source : List Char) (items : α → List Item) (rule : List Text → Rule α) :
    Prop :=
  ∀ passed comments stream value next, stream.Ended → DocsOf passed comments stream →
    rule (comments.map Token.text) stream = .ok value next →
    Attaches source passed comments stream next (items value)

namespace Documents

variable {source : List Char} {starts : List Token → Stream → Prop} {items : α → List Item}
  {others : β → List Item}

/-- An answer without items. -/
theorem pure {value : α} (none : items value = []) :
    Documents source starts items (pure value) := by
  intro passed stream answer next _ _ read
  cases read
  rw [none]
  exact .nil (List.nil_append _).symm

/-- Rules in turn, the first of which reads no items. -/
theorem bind_right {first : Rule α} {second : α → Rule β} (forward : Forward first)
    (later : ∀ value, Documents source Anywhere others (second value)) :
    Documents source starts others (first >>= second) := by
  intro passed stream answer next ended _ read
  obtain ⟨value, middle, readFirst, readSecond⟩ := bind_eq_ok_iff.mp read
  obtain ⟨before, split, middleEnded⟩ := forward.exists_taken ended readFirst
  exact .behind split (List.nil_sublist _)
    (later value (passed ++ before) middle answer next middleEnded trivial readSecond)

/-- An answer that holds the same items. -/
theorem map {rule : Rule α} (documents : Documents source starts items rule) (f : α → β)
    (same : ∀ value, others (f value) = items value) :
    Documents source starts others (rule >>= fun value => Pure.pure (f value)) := by
  intro passed stream answer next ended started read
  obtain ⟨value, middle, readRule, answered⟩ := bind_eq_ok_iff.mp read
  cases answered
  rw [same]
  exact documents passed stream value _ ended started readRule

theorem ite {condition : Prop} [Decidable condition] {first second : Rule α}
    (yes : Documents source starts items first) (no : Documents source starts items second) :
    Documents source starts items (if condition then first else second) := by
  split
  · exact yes
  · exact no

/-- Behind a bracket a rule stands between constructs. -/
theorem behind_bracket {bracket : Mark} {later : Token → Rule β}
    (isBracket : bracket.isBracket = true)
    (documents : ∀ token, Documents source Between others (later token)) :
    Documents source starts others (expect (.mark bracket) >>= later) := by
  intro passed stream answer next ended _ read
  obtain ⟨token, middle, readBracket, readLater⟩ := bind_eq_ok_iff.mp read
  obtain ⟨rest, ahead, isKind, rfl, middleEnded⟩ :=
    exists_cons_of_expect (by simp) ended readBracket
  have between : Between (passed ++ [token]) stream.next := by
    left
    simp [Token.isBoundary, Token.isBracket_of_kind isKind, isBracket]
  have split : stream.ahead = [token] ++ stream.next.ahead := by
    rw [Stream.ahead_next ahead]
    exact ahead
  exact .behind split (List.nil_sublist _)
    (documents token (passed ++ [token]) stream.next answer next middleEnded between readLater)

/-- Behind a bracket that may come next a rule stands between constructs. -/
theorem behind_accepted {bracket : Mark} {yes no : Rule β}
    (isBracket : bracket.isBracket = true)
    (documents : Documents source Between others yes)
    (otherwise : Documents source Anywhere others no) :
    Documents source starts others
      (accepts (.mark bracket) >>= fun found => if found then yes else no) := by
  intro passed stream answer next ended started read
  rw [bind_apply, accepts_apply] at read
  by_cases isKind : stream.current.kind = .mark bracket
  · have expected : (expect (.mark bracket) >>= fun _ => yes) stream = .ok answer next := by
      rw [bind_apply, expect_apply, if_pos isKind]
      simpa only [isKind, if_true] using read
    exact behind_bracket isBracket (fun _ => documents) passed stream answer next ended started
      expected
  · simp only [isKind, if_false, Bool.false_eq_true] at read
    exact otherwise passed stream answer next ended trivial read

end Documents

/-- The docs in front of a token stand directly above it. -/
theorem exists_docs {passed : List Token} {stream : Stream} (ended : stream.Ended)
    (between : Between passed stream) :
    ∃ run comments, stream.ahead = run ++ (stream.skip run.length).ahead ∧
      docs stream = .ok (comments.map Token.text) (stream.skip run.length) ∧
      comments.Sublist run ∧ ((stream.skip run.length).ahead ≠ [] →
        DocsOf (passed ++ run) comments (stream.skip run.length)) := by
  have split : stream.ahead = stream.ahead.takeWhile Token.isSpacing ++
      (stream.skip (stream.ahead.takeWhile Token.isSpacing).length).ahead := by
    have isPrefix : stream.ahead.takeWhile Token.isSpacing <+: stream.ahead :=
      List.takeWhile_prefix Token.isSpacing
    have taken := List.prefix_iff_eq_take.mp isPrefix
    refine (List.take_append_drop (stream.ahead.takeWhile Token.isSpacing).length _).symm.trans ?_
    rw [← taken]
    rfl
  have spacing : ∀ token ∈ stream.ahead.takeWhile Token.isSpacing, token.isSpacing = true :=
    fun token => List.mem_takeWhile_imp
  obtain ⟨comments, skipped, lines, run, docLines, same⟩ := exists_docLines _ spacing
  refine ⟨_, comments, split, ?_, ?_, ?_⟩
  · rw [docs_apply]
    dsimp only
    rw [same]
  · rw [run]
    exact docLines.sublist.trans (List.sublist_append_right _ _)
  · intro goesOn
    obtain ⟨first, later, ahead⟩ := List.exists_cons_of_ne_nil goesOn
    refine ⟨ended, goesOn, ?_⟩
    rw [Stream.current_of_cons ahead]
    apply DirectlyAbove.intro passed skipped lines later
    · rw [← run, ← ahead]
    · intro token isSkipped
      exact spacing token (run ▸ List.mem_append_left _ isSkipped)
    · exact docLines
    · rcases between with between | notSpacing
      · exact .inr between
      · left
        rw [← run]
        cases tokens : stream.ahead with
        | nil => rfl
        | cons token rest =>
          rw [Stream.current_of_cons tokens] at notSpacing
          simp [notSpacing]

/-- A round that collects docs and reads an item below them. -/
theorem Documents.below_docs {source : List Char} {items : α → List Item}
    {below : List Text → Rule (Option α)} (forward : Forward (docs >>= below))
    (documents : ∀ passed comments stream value next, stream.Ended →
      (stream.ahead ≠ [] → DocsOf passed comments stream) →
      below (comments.map Token.text) stream = .ok (some value) next →
      Attaches source passed comments stream next (items value)) :
    Documents source Between (fun found => found.toList.flatMap items) (docs >>= below) := by
  intro passed stream found next ended between read
  obtain ⟨all, whole, -⟩ := forward.exists_taken ended read
  obtain ⟨run, comments, split, readDocs, sublist, docsOf⟩ := exists_docs ended between
  cases found with
  | none => exact .nil whole
  | some value =>
    rw [bind_apply, readDocs] at read
    have attaches := documents (passed ++ run) comments _ value next (ended.skip _) docsOf read
    simpa using Attaches.behind split sublist attaches

/-- A round of a loop between brackets documents its item. -/
theorem documents_untilClosed {source : List Char} {items : α → List Item} {closing : Kind}
    {fault : SyntaxError.Cause} {item : List Text → Rule α}
    (consumes : ∀ docs, Consumes (item docs)) (below : DocumentsBelow source items item) :
    Documents source Between (fun found => found.toList.flatMap items)
      (untilClosed docs closing fault item) := by
  have behind : untilClosed docs closing fault item =
      docs >>= fun led => untilClosed (pure led) closing fault item := by
    simp only [untilClosed, pure_bind]
  have forward : Forward (untilClosed docs closing fault item) :=
    forward_untilClosed forward_docs fun led => (consumes led).forward
  rw [behind] at forward ⊢
  apply Documents.below_docs forward
  intro passed comments stream value next ended docsOf read
  rw [untilClosed_apply (pure_apply _ _)] at read
  split at read
  · cases read
  split at read
  · cases read
  · next goesOn =>
    obtain ⟨_, _, readItem, answered⟩ := bind_eq_ok_iff.mp read
    cases answered
    exact below passed comments stream value _ ended (docsOf (Stream.ahead_ne_nil ended goesOn))
      readItem

/-- A loop documents its items if its rounds do, and each item ends a construct. -/
theorem Documents.many {source : List Char} {items : α → List Item} {round : Rule (Option α)}
    (forward : Forward round) (shrinks : ShrinksWithin Stream.Ended round)
    (closes : ClosesItems round)
    (documents : Documents source Between (fun found => found.toList.flatMap items) round) :
    Documents source Between (fun values => values.flatMap items) (many round) := by
  have rounds {stream last next : Stream} {values : List α}
      (run : Rounds round stream values last) (ends : round last = .ok none next)
      (passed : List Token) (ended : stream.Ended) (between : Between passed stream) :
      Attaches source passed [] stream next (values.flatMap items) := by
    induction run generalizing passed with
    | none stream =>
      obtain ⟨taken, split, -⟩ := forward.exists_taken ended ends
      exact .nil split
    | @more stream middle last item values read _ inductionHypothesis =>
      have attaches := documents passed stream _ middle ended between read
      obtain ⟨taken, split, closed⟩ := closes _ _ _ ended read
      have middleEnded := (forward.exists_taken ended read).choose_spec.2
      rw [List.flatMap_cons]
      apply Attaches.append (by simpa using attaches)
      intro before sameSplit
      obtain rfl : taken = before := List.append_cancel_right (split.symm.trans sameSplit)
      exact inductionHypothesis ends (passed ++ taken) middleEnded (closed passed)
  intro passed stream values next ended between read
  obtain ⟨last, run, ends⟩ := (many_eq_ok_iff shrinks ended).mp read
  exact rounds run ends passed ended between

/-- A loop between brackets documents its items. -/
theorem Documents.many_untilClosed {source : List Char} {items : α → List Item} {closing : Kind}
    {fault : SyntaxError.Cause} {item : List Text → Rule α}
    (consumes : ∀ docs, Consumes (item docs)) (closes : ∀ docs, Closes (item docs))
    (below : DocumentsBelow source items item) :
    Documents source Between (fun values => values.flatMap items)
      (ApiDescription.many (untilClosed docs closing fault item)) :=
  .many (forward_untilClosed forward_docs fun led => (consumes led).forward)
    (shrinks_untilClosed forward_docs consumes) (closesItems_untilClosed forward_docs closes)
    (documents_untilClosed consumes below)

/-- The comment that is read behind an item is the next token, if there is one. -/
theorem exists_trailing {line : Nat} {stream next : Stream} {comment : Text} (ended : stream.Ended)
    (read : trailingComment line stream = .ok comment next) :
    ∃ trailing : Option Token, stream.ahead = trailing.toList ++ next.ahead ∧ next.Ended ∧
      comment = (trailing.map Token.text).getD [] ∧ ∀ token ∈ trailing, token.kind = .comment := by
  have nextEnded := ((forward_trailingComment line).exists_taken ended read).choose_spec.2
  rw [trailingComment_apply] at read
  split at read
  · next found =>
    cases read
    obtain ⟨token, rest, ahead⟩ := List.exists_cons_of_ne_nil
      (Stream.ahead_ne_nil ended (by simp [found.1]))
    rw [Stream.current_of_cons ahead] at found ⊢
    refine ⟨some token, by rw [ahead, Stream.ahead_next ahead]; rfl, nextEnded, rfl, ?_⟩
    simpa using found.1
  · cases read
    exact ⟨none, rfl, nextEnded, rfl, by simp⟩

/-- An item is read on a line: with the docs it was given, and with the comment that trails it, of
which the token is among those taken. -/
def ReadsLine (docs : List Text) (item : α → Item) (rule : Rule α) : Prop :=
  ∀ stream value next, stream.Ended → rule stream = .ok value next →
    (item value).docs = docs ∧ ∃ before behind, ∃ trailing : Option Token,
      stream.ahead = before ++ (trailing.toList ++ (behind ++ next.ahead)) ∧
      (item value).comment = (trailing.map Token.text).getD [] ∧
      ∀ token ∈ trailing, token.kind = .comment

namespace ReadsLine

variable {docs : List Text} {item : β → Item}

/-- What is read in front of the comment. -/
theorem bind_right {first : Rule α} {second : α → Rule β} (forward : Forward first)
    (later : ∀ value, ReadsLine docs item (second value)) :
    ReadsLine docs item (first >>= second) := by
  intro stream value next ended read
  obtain ⟨found, middle, readFirst, readSecond⟩ := bind_eq_ok_iff.mp read
  obtain ⟨before, split, middleEnded⟩ := forward.exists_taken ended readFirst
  obtain ⟨sameDocs, more, behind, trailing, middleSplit, comment, isComment⟩ :=
    later found middle value next middleEnded readSecond
  refine ⟨sameDocs, before ++ more, behind, trailing, ?_, comment, isComment⟩
  rw [split, middleSplit, List.append_assoc]

/-- The comment, and what ends the line behind it. -/
theorem trailingComment {line : Nat} {rest : Text → Rule β}
    (forward : ∀ comment, Forward (rest comment))
    (answers : ∀ comment stream value next, rest comment stream = .ok value next →
      (item value).docs = docs ∧ (item value).comment = comment) :
    ReadsLine docs item (trailingComment line >>= rest) := by
  intro stream value next ended read
  obtain ⟨comment, middle, readComment, readRest⟩ := bind_eq_ok_iff.mp read
  obtain ⟨trailing, split, middleEnded, same, isComment⟩ := exists_trailing ended readComment
  obtain ⟨behind, middleSplit, -⟩ := (forward comment).exists_taken middleEnded readRest
  obtain ⟨sameDocs, sameComment⟩ := answers comment middle value next readRest
  refine ⟨sameDocs, [], behind, trailing, ?_, sameComment.trans same, isComment⟩
  rw [split, middleSplit, List.nil_append]

end ReadsLine

/-- An item that is read on a line is documented by the docs above it and the comment on it. -/
theorem ReadsLine.documentsBelow {source : List Char} {item : α → Item} {rule : List Text → Rule α}
    (onLine : ∀ docs, ReadsLine docs item (rule docs))
    (readFrom : ∀ docs stream value next, (item value).docs = docs →
      rule docs stream = .ok value next → (item value).ReadFrom source stream) :
    DocumentsBelow source (fun value => [item value]) rule := by
  intro passed comments stream value next ended docsOf read
  obtain ⟨sameDocs, before, behind, trailing, split, comment, isComment⟩ :=
    onLine _ stream value next ended read
  exact .single split
    (docsOf.documented isComment sameDocs comment (readFrom _ stream value next sameDocs read))

section Items

variable {source : List Char}

/-- A member is documented by the docs above it and the comment on its line. -/
theorem documentsBelow_member : DocumentsBelow source (fun parts => [.member parts]) member := by
  refine ReadsLine.documentsBelow (fun docs => ?_) ?_
  · rw [member_eq]
    refine .bind_right .current fun _ => .bind_right consumes_memberHead.forward fun _ =>
      .bind_right (forward_textIf _) fun _ =>
        .trailingComment (fun _ => .bind forward_lineEnd fun _ => .pure _) ?_
    intro comment stream parts next read
    obtain ⟨_, _, -, answered⟩ := bind_eq_ok_iff.mp read
    cases answered
    exact ⟨rfl, rfl⟩
  · rintro _ stream parts next rfl read
    exact ⟨next, read⟩

/-- A route is documented by the docs above it and the comment on its line. -/
theorem documentsBelow_route :
    DocumentsBelow source (fun parts => [.route parts]) (route source) := by
  refine ReadsLine.documentsBelow (fun docs => ?_) ?_
  · rw [route_eq]
    refine .bind_right ((forward_routeNote? source).many (shrinks_routeNote? source)) fun _ =>
      .bind_right consumes_expectName.forward fun _ => .bind_right (forward_refuseIf _ _) fun _ =>
        .bind_right (consumes_expect (by decide)).forward fun _ =>
          .bind_right (forward_bodyIf (.sees _)) fun _ =>
            .bind_right (forward_bodyIf (forward_accepts _)) fun _ => .trailingComment
              (fun _ => .bind forward_lineEnd fun _ =>
                .bind (forward_refuseIf _ _) fun _ => .pure _)
              ?_
    intro comment stream parts next read
    obtain ⟨_, _, -, read⟩ := bind_eq_ok_iff.mp read
    obtain ⟨_, _, -, answered⟩ := bind_eq_ok_iff.mp read
    cases answered
    exact ⟨rfl, rfl⟩
  · rintro _ stream parts next rfl read
    exact ⟨next, read⟩

/-- The members of a struct are documented, wherever the struct stands. -/
theorem documents_typeBody (docs : List Text) :
    Documents source Anywhere TypeDecl.inside (typeBody docs) := by
  have members : Documents source Between
      (fun parts : List Member => parts.flatMap fun part => [.member part]) members := by
    rw [Rule.members, member?_eq]
    exact .many_untilClosed consumes_member closes_member documentsBelow_member
  have struct (name : Text) : Documents source Between TypeDecl.inside
      (Rule.members >>= fun parts => pure (.struct name parts docs)) :=
    members.map _ fun parts => List.map_eq_flatMap
  have target (name : Text) : Documents source Anywhere TypeDecl.inside
      (accepts (.mark .equals) >>= fun _ => typeExpr >>= fun type => lineEnd >>= fun _ =>
        pure (.alias name (some type) docs)) :=
    .bind_right (forward_accepts _) fun _ => .bind_right consumes_typeExpr.forward fun _ =>
      .bind_right forward_lineEnd fun _ => .pure rfl
  exact .bind_right consumes_expectName.forward fun name =>
    .bind_right (forward_accepts _) fun _ => .ite
      (.behind_bracket rfl fun _ => struct name.text)
      (.behind_accepted rfl (struct name.text) (target name.text))

/-- The docs of a declaration are those it was read with. -/
theorem docs_of_typeBody {docs : List Text} {stream next : Stream} {decl : TypeDecl}
    (read : typeBody docs stream = .ok decl next) : (Item.type decl).docs = docs := by
  obtain ⟨name, _, _, read⟩ := bind_eq_ok_iff.mp read
  obtain ⟨isStruct, _, _, read⟩ := bind_eq_ok_iff.mp read
  split at read
  · obtain ⟨_, _, _, read⟩ := bind_eq_ok_iff.mp read
    obtain ⟨_, _, _, answered⟩ := bind_eq_ok_iff.mp read
    cases answered
    rfl
  obtain ⟨isStruct, _, _, read⟩ := bind_eq_ok_iff.mp read
  split at read
  · obtain ⟨_, _, _, answered⟩ := bind_eq_ok_iff.mp read
    cases answered
    rfl
  · obtain ⟨_, _, _, read⟩ := bind_eq_ok_iff.mp read
    obtain ⟨_, _, _, read⟩ := bind_eq_ok_iff.mp read
    obtain ⟨_, _, _, answered⟩ := bind_eq_ok_iff.mp read
    cases answered
    rfl

/-- A declaration is documented by the docs it was read with, and so are its members. -/
theorem attaches_decl {passed comments before : List Token} {stream middle next : Stream}
    {decl : TypeDecl} (docsOf : DocsOf passed comments stream)
    (split : stream.ahead = before ++ middle.ahead) (middleEnded : middle.Ended)
    (read : typeBody (comments.map Token.text) middle = .ok decl next)
    (readFrom : (Item.type decl).ReadFrom source stream) :
    Attaches source passed comments stream next decl.items := by
  have inside : Attaches source (passed ++ before) [] middle next decl.inside :=
    documents_typeBody _ (passed ++ before) middle decl next middleEnded trivial read
  exact .cons (docsOf.documented nofun (docs_of_typeBody read) rfl readFrom)
    (.behind split (List.nil_sublist _) inside)

/-- A declaration of a group is documented by the docs above its name. -/
theorem documentsBelow_typeBody : DocumentsBelow source TypeDecl.items typeBody := by
  intro passed comments stream decl next ended docsOf read
  apply attaches_decl docsOf (List.nil_append _).symm ended read
  left
  rw [docs_of_typeBody read]
  exact ⟨next, read⟩

/-- A declaration that stands alone is documented by the docs above the word `type`; docs above
a group are not used. -/
theorem documentsBelow_typeDecls :
    DocumentsBelow source (fun decls => decls.flatMap TypeDecl.items) typeDecls := by
  intro passed comments stream decls next ended docsOf read
  obtain ⟨word, _, readWord, read⟩ := bind_eq_ok_iff.mp read
  obtain ⟨rest, ahead, isWord, rfl, wordEnded⟩ := exists_cons_of_expect (by decide) ended readWord
  have split : stream.ahead = [word] ++ stream.next.ahead := by
    rw [Stream.ahead_next ahead]
    exact ahead
  rw [bind_apply, accepts_apply] at read
  by_cases isGroup : stream.next.current.kind = .mark .leftParen
  · have group : Documents source Anywhere (fun decls => decls.flatMap TypeDecl.items)
        (expect (.mark .leftParen) >>= fun _ => many groupedType?) := by
      rw [groupedType?_eq]
      exact .behind_bracket rfl fun _ =>
        .many_untilClosed consumes_typeBody closes_typeBody documentsBelow_typeBody
    have groupRead : (expect (.mark .leftParen) >>= fun _ => many groupedType?) stream.next =
        .ok decls next := by
      rw [bind_apply, expect_apply, if_pos isGroup]
      simpa only [isGroup, if_true] using read
    exact .behind split (List.nil_sublist _)
      (group (passed ++ [word]) stream.next decls next wordEnded trivial groupRead)
  · simp only [isGroup, if_false, Bool.false_eq_true] at read
    obtain ⟨decl, _, readDecl, answered⟩ := bind_eq_ok_iff.mp read
    cases answered
    dsimp only
    rw [List.flatMap_singleton]
    apply attaches_decl docsOf split wordEnded readDecl
    right
    rw [docs_of_typeBody readDecl, Stream.current_of_cons ahead]
    exact ⟨isWord, _, readDecl⟩

/-- The routes of a service are documented; docs above a service are not used. -/
theorem documents_serviceGroup :
    Documents source Anywhere (fun read => read.2.routes.map .route) (serviceGroup source) := by
  refine .bind_right (forward_groupServer source) fun server =>
    .bind_right (consumes_expect (by decide)).forward fun _ =>
      .bind_right consumes_expectName.forward fun name => .behind_bracket rfl fun _ => ?_
  have routes : Documents source Between
      (fun parts : List Route => parts.flatMap fun part => [.route part])
      (many (route? source name.value)) := by
    rw [route?_eq]
    exact .many_untilClosed (consumes_route source) (closes_route source) documentsBelow_route
  exact routes.map _ fun parts => List.map_eq_flatMap

/-- The items of a declaration are documented, whatever kind of declaration comes next. -/
theorem documents_declarationOf {passed comments : List Token} {stream next : Stream}
    {declared : Rule Declaration} {declaration : Declaration} (ended : stream.Ended)
    (docsOf : DocsOf passed comments stream)
    (found : declarationOf source (comments.map Token.text) stream.current.kind = some declared)
    (read : declared stream = .ok declaration next) :
    Attaches source passed comments stream next declaration.items := by
  have aside (documents : Documents source Anywhere Declaration.items declared) :
      Attaches source passed comments stream next declaration.items := by
    have attaches := documents (passed ++ []) stream declaration next ended trivial read
    exact .behind (List.nil_append _).symm (List.nil_sublist _) attaches
  unfold declarationOf at found
  split at found
  case h_1 =>
    cases found
    exact aside (.bind_right consumes_version.forward fun _ => .pure rfl)
  case h_2 =>
    cases found
    exact aside (.bind_right (consumes_info source).forward fun _ => .pure rfl)
  case h_3 =>
    cases found
    exact aside (.bind_right consumes_imports.forward fun _ => .pure rfl)
  case h_4 =>
    cases found
    obtain ⟨decls, _, readTypes, answered⟩ := bind_eq_ok_iff.mp read
    cases answered
    exact documentsBelow_typeDecls passed comments stream decls _ ended docsOf readTypes
  case h_5 | h_6 =>
    cases found
    exact aside (documents_serviceGroup.map _ fun read => rfl)
  case h_7 => cases found

/-- The items of a declaration are documented by comments behind the declarations before it. -/
theorem documents_declaration? :
    Documents source Between (fun found => found.toList.flatMap Declaration.items)
      (declaration? source) := by
  have forward := forward_declaration? source
  rw [declaration?_eq] at forward ⊢
  apply Documents.below_docs forward
  intro passed comments stream declaration next ended docsOf read
  unfold declarationBelow at read
  split at read
  · next declared begins =>
    obtain ⟨_, _, readDeclared, answered⟩ := bind_eq_ok_iff.mp read
    cases answered
    have goesOn : stream.current.kind ≠ .endOfText := by
      intro atEnd
      rw [atEnd] at begins
      cases begins
    exact documents_declarationOf ended (docsOf (Stream.ahead_ne_nil ended goesOn)) begins
      readDeclared
  · split at read <;> cases read

/-- All items of a description are documented, each by comments of its own. -/
theorem documents_declarations :
    Documents source Between (fun declarations => declarations.flatMap Declaration.items)
      (many (declaration? source)) :=
  .many (forward_declaration? source) (shrinks_declaration? source)
    (closesItems_declaration? source) documents_declaration?

end Items

end Rule

end ApiDescription
