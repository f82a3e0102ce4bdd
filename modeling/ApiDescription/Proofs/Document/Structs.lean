import ApiDescription.Proofs.Document.Blocks

/-!
# Written type declarations

Structs and aliases are read as they are written. A member line begins with its name
or, if the member is embedded, with its type; what stands behind the first word tells
the two apart.
-/

namespace ApiDescription

open Piece

/-- Lines that can be written in pieces from which the rounds of a loop read items. -/
def Rule.Lists {α : Type} (round : Rule (Option α)) (lines : List Line) (items : List α) : Prop :=
  ∃ pieces, WrittenAs lines pieces ∧ ∀ place, Rule.Collects place round pieces items Rule.Anything

namespace Rule.Lists

variable {α : Type} {round : Rule (Option α)}

/-- Lines above lines list the items of both. -/
theorem append {above below : List Line} {firsts seconds : List α}
    (first : Lists round above firsts) (second : Lists round below seconds) :
    Lists round (above ++ below) (firsts ++ seconds) := by
  obtain ⟨start, startWritten, startRead⟩ := first
  obtain ⟨rest, restWritten, restRead⟩ := second
  exact ⟨start ++ rest, startWritten.append restWritten,
    fun place => (startRead place).append (restRead _) fun _ _ => trivial⟩

/-- An empty line lists nothing. -/
theorem emptyLine (skips : SkipsFeeds round) : Lists round [[]] [] :=
  ⟨[feed], .emptyLine, fun _ => .feed skips⟩

/-- Lines that list items one after the other list them all. -/
theorem flatMap {γ : Type} {written : List γ} {lines : γ → List Line} {item : γ → α}
    (each : ∀ one ∈ written, Lists round (lines one) [item one]) :
    Lists round (written.flatMap lines) (written.map item) := by
  induction written with
  | nil => exact ⟨[], .nil, fun _ => .nil⟩
  | cons one written inductionHypothesis =>
    rw [List.flatMap_cons]
    exact (each one List.mem_cons_self).append
      (inductionHypothesis fun other member => each other (List.mem_cons_of_mem _ member))

end Rule.Lists

/-- A type has a name. -/
theorem TypeExpr.Written.chars_ne_nil {type : TypeExpr} {pieces : List Piece}
    (written : type.Written pieces) : type.name.chars ≠ [] := by
  rw [← written.text]
  cases written with
  | name lexeme => simpa [plain, chars] using lexeme.spelled.ne_nil
  | qualified lexeme _ => simp [plain, mark, chars]
  | _ => simp [mark, keyword, chars, Keyword.spelling]

namespace Member.Headed

variable {name : Text} {type : TypeExpr} {embedded : Bool} {pieces : List Piece}

/-- A member line begins with what its head is written as. -/
theorem text (headed : Headed name type embedded pieces) (words : List (List Char)) :
    Line.ofWords (name.chars :: type.name.chars :: words) =
      textOf pieces ++ words.flatMap fun other => if other = [] then [] else ' ' :: other := by
  cases headed with
  | @named _ _ pieces isName written =>
    rw [Line.ofWords_cons isName.spelled.ne_nil]
    simp [written.text, written.chars_ne_nil, Piece.name, plain, chars]
  | pointer written =>
    have whole := TypeExpr.Written.pointer written
    rw [show Text.chars [] = [] from rfl, Line.ofWords_nil, Line.ofWords_cons whole.chars_ne_nil,
      whole.text]
  | embedded isName =>
    rw [show Text.chars [] = [] from rfl, Line.ofWords_nil, TypeExpr.name_ofName,
      Line.ofWords_cons isName.spelled.ne_nil]
    simp [Piece.name, plain, chars]
  | @qualified first second isName lexeme =>
    have present : (first ++ Text.ofString "." ++ second).chars ≠ [] := by
      simp [Text.ofString]
    rw [show Text.chars [] = [] from rfl, Line.ofWords_nil, TypeExpr.name_ofName,
      Line.ofWords_cons present]
    simp [Piece.name, plain, mark, chars, Text.ofString, Mark.char]

/-- The head of a member line stands on one line. -/
theorem inLine (headed : Headed name type embedded pieces) : '\n' ∉ textOf pieces := by
  cases headed with
  | named isName written =>
    simpa [Piece.name, plain, chars] using ⟨isName.inLine, written.inLine⟩
  | pointer written => exact (TypeExpr.Written.pointer written).inLine
  | embedded isName => simpa [Piece.name, plain, chars] using isName.inLine
  | qualified isName lexeme =>
    simpa [Piece.name, plain, mark, chars, Mark.char] using
      ⟨isName.inLine, lexeme.isName.1.inLine⟩

/-- The head of a member line can be read at the start of a line, in front of what may stand
behind a word. -/
theorem flows (headed : Headed name type embedded pieces) {rest : List Piece}
    (behind : ∀ last : Piece, last.Wordlike → Flows last rest) : Flows feed (pieces ++ rest) := by
  cases headed with
  | named isName written =>
    exact .name isName open_feed (.blank (wordlike_name _) (written.flows open_blank behind))
  | pointer written => exact (TypeExpr.Written.pointer written).flows open_feed behind
  | embedded isName => exact .name isName open_feed (behind _ (wordlike_name _))
  | @qualified first second isName lexeme =>
    rw [lexeme.isName.2]
    exact .name isName open_feed (.mark .dot (wordlike_name _)
      (.name lexeme.isName.1 (open_mark _) (behind _ (wordlike_name _))))

/-- The head of a member line begins with a word or a star. -/
theorem starts (headed : Headed name type embedded pieces) :
    ∃ kind slice value rest, pieces = .token kind slice value :: rest ∧
      Rule.NotSpacing kind ∧ kind ≠ .mark .rightBrace ∧ kind ≠ .endOfText := by
  cases headed with
  | pointer _ => exact ⟨_, _, _, _, rfl, by simp [Rule.NotSpacing]⟩
  | _ => exact ⟨_, _, _, _, rfl, Rule.wordKind_apart _ .rightBrace⟩

end Member.Headed

namespace Text

variable {text : Text} {kind : Kind}

/-- A text that may be absent holds characters only. -/
theorem IsOptional.textual (optional : text.IsOptional kind) : text.isTextual = true := by
  rcases optional with rfl | lexeme
  · rfl
  · exact lexeme.textual

/-- A raw text begins with a backtick. -/
theorem IsLexeme.rawText (lexeme : text.IsLexeme .rawText) : text.chars.head? ≠ some '/' := by
  obtain ⟨-, spelled⟩ := lexeme
  generalize text.chars = slice at spelled
  generalize String.ofList slice = value at spelled
  generalize kind : Kind.rawText = found at spelled
  cases spelled with
  | rawText _ => simp
  | word =>
    rcases wordKind_cases (String.ofList _) with identifier | ⟨keyword, isKeyword⟩
    · exact absurd (kind.trans identifier) (by decide)
    · exact absurd (kind.trans isKeyword) (by simp)
  | _ => exact nomatch kind

end Text

/-- A tag and a comment may stand behind a word, at the end of the line. -/
theorem Piece.Flows.memberTail {tag comment : Text} {before : Piece} {rest : List Piece}
    (isTag : tag.IsOptional .rawText) (isComment : comment.IsOptional .comment)
    (wordlike : before.Wordlike) (flows : Flows .feed rest) :
    Flows before (aside .rawText tag ++ (aside .comment comment ++ .feed :: rest)) := by
  rw [aside]
  split
  · exact .aside_comment isComment wordlike.spaced flows
  · next present =>
    have lexeme := isTag.resolve_left present
    have opens : (plain .rawText tag).Open := fun _ => rfl
    exact .blank wordlike ⟨lexeme.spelled, open_blank.meets lexeme.rawText,
      .aside_comment isComment opens.wordlike.spaced flows⟩

namespace Rule

variable {place : Location} {before : Kind → Prop}

/-- What may stand behind the head of a member line: nothing that would belong to a type. -/
def BehindHead (next : Kind) : Prop := next ≠ .mark .dot ∧ next ∉ typeStarts

/-- The head of a member line is read as it is written. -/
theorem reads_memberHead {name : Text} {type : TypeExpr} {embedded : Bool} {pieces : List Piece}
    (headed : Member.Headed name type embedded pieces) :
    Reads place memberHead pieces (name, type, embedded) BehindHead := by
  cases headed with
  | @named _ _ pieces isName written =>
    obtain ⟨kind, member, starts⟩ := written.starts
    have first (after : Kind) : firstKind (.blank :: pieces) after = kind := by
      simpa [firstKind] using starts [] after
    refine (reads_sees_of_ne (.mark .star)).bind_peek ?_ fun _ _ => (wordKind_apart _ .star).2.1
    refine (reads_name name).bind_token ?_
    refine (reads_sees_of_ne (.mark .dot)).bind_peek ?_ fun after _ => ?_
    · refine (reads_seesAny typeStarts).bind_peek ?_ fun after _ => first after ▸ member
      refine Reads.weaken (.blank ((reads_typeExpr written).map ?_)) fun _ next => next.1
      rw [text_plain isName.textual]
    · rw [first after]
      rintro rfl
      exact absurd member (by decide)
  | pointer written =>
    refine (reads_sees (.mark .star)).bind_peek ?_ fun _ _ => rfl
    exact ((reads_typeExpr (.pointer written)).map rfl).weaken fun _ next => next.1
  | embedded isName =>
    refine (reads_sees_of_ne (.mark .star)).bind_peek ?_ fun _ _ => (wordKind_apart _ .star).2.1
    refine (reads_name _).bind_token ?_
    refine (reads_sees_of_ne (.mark .dot)).bind_peek ?_ fun _ next => next.1
    refine (reads_seesAny_of_not_mem typeStarts).bind_peek ?_ fun _ next => next.2
    rw [text_plain isName.textual]
    exact .pure _
  | @qualified first second isName lexeme =>
    refine (reads_sees_of_ne (.mark .star)).bind_peek ?_ fun _ _ => (wordKind_apart _ .star).2.1
    refine (reads_name _).bind_token ?_
    refine (reads_sees (.mark .dot)).bind_peek ?_ fun _ _ => rfl
    refine (reads_qualifiedName_dot lexeme.textual _).map ?_
    rw [text_plain isName.textual]

/-- A stretch of text without a line feed stays on its line. -/
theorem line_after_inLine {text : List Char} (inLine : '\n' ∉ text) :
    (place.after text).line = place.line := by
  rw [Location.line_after, List.count_eq_zero.mpr inLine, Nat.add_zero]

/-- Behind a text that may be absent comes what it is or what follows it. -/
theorem firstKind_aside (kind : Kind) (text : Text) (rest : List Piece) (after : Kind) :
    firstKind (aside kind text ++ rest) after =
      if text = [] then firstKind rest after else kind := by
  unfold aside
  split <;> rfl

/-- A member is read as it is written. -/
theorem reads_member {m : Member} (wellFormed : m.WellFormed) {pieces : List Piece}
    (headed : Member.Headed m.name m.type m.embedded pieces) :
    Reads place (member m.docs)
      (pieces ++ (aside .rawText m.tag ++ (aside .comment m.comment ++ [feed]))) m Anything := by
  obtain ⟨kind, slice, value, rest, split, -⟩ := headed.starts
  have begins : pieces ++ (aside .rawText m.tag ++ (aside .comment m.comment ++ [feed])) =
      .token kind slice value ::
        (rest ++ (aside .rawText m.tag ++ (aside .comment m.comment ++ [feed]))) := by
    rw [split, List.cons_append]
  rw [member_eq]
  refine Reads.current_bind _ _ _ begins fun first start => ?_
  refine (reads_memberHead headed).bind ?_ fun _ _ => ?_
  · refine (reads_textIf_aside wellFormed.tag.textual .rawText).bind ?_ fun _ _ => ?_
    · refine (reads_trailingComment wellFormed.comment.textual fun present => ?_).bind ?_
        fun _ _ => rfl
      · have tagInLine : '\n' ∉ textOf (aside .rawText m.tag) := by
          rw [textOf_aside wellFormed.tag.textual]
          have inLine := mt wellFormed.sameLine present
          split
          · exact List.not_mem_nil
          · simpa using inLine
        rw [line_after_inLine tagInLine, line_after_inLine headed.inLine, start]
      · exact reads_lineEnd.map rfl
    · rw [firstKind_aside]
      split <;> simp
  · rw [firstKind_aside, firstKind_aside]
    have behind : BehindHead .rawText ∧ BehindHead .comment ∧ BehindHead .newline := by
      simp [BehindHead, typeStarts]
    split
    · split
      · exact behind.2.2
      · exact behind.2.1
    · exact behind.1

/-- The lines of a member list it. -/
theorem lists_member {m : Member} (wellFormed : m.WellFormed) : Lists member? m.lines [m] := by
  obtain ⟨pieces, headed⟩ := wellFormed.headed
  obtain ⟨kind, slice, value, rest, split, noSpacing, noClosing, goesOn⟩ := headed.starts
  refine ⟨ofDocs m.docs ++ (pieces ++ aside .rawText m.tag ++ aside .comment m.comment ++ [feed]),
    (writtenAs_ofDocs wellFormed.docs).append (.line ?_ fun flows => ?_), fun place => .single ?_⟩
  · rw [headed.text, textOf_append, textOf_append, textOf_aside wellFormed.tag.textual,
      textOf_aside wellFormed.comment.textual]
    simp
  · rw [List.append_assoc, List.append_assoc]
    exact headed.flows fun last wordlike =>
      .memberTail wellFormed.tag wellFormed.comment wordlike flows
  · rw [member?_eq, List.append_assoc, List.append_assoc]
    refine Reads.untilClosed (reads_docs fun doc member => (wellFormed.docs doc member).textual)
      (reads_member wellFormed headed) fun _ _ => ?_
    rw [split]
    exact ⟨noSpacing, noClosing, goesOn⟩

/-- The lines of members list them. -/
theorem lists_members {members : List Member} (fields : ∀ m ∈ members, m.WellFormed) :
    Lists member? (members.flatMap Member.lines) members := by
  have lists : Lists member? (members.flatMap Member.lines) (members.map id) :=
    .flatMap fun m isMember => lists_member (fields m isMember)
  rwa [List.map_id] at lists

/-- The members of a struct are read up to the brace that closes it. -/
theorem reads_members {members : List Member} {pieces : List Piece}
    (collects : ∀ place, Collects place member? pieces members Anything) :
    Reads place Rule.members (feed :: (pieces ++ [mark .rightBrace])) members Anything := by
  have shrinks := shrinks_member?
  simp only [member?_eq] at collects shrinks
  rw [Rule.members, member?_eq]
  exact Reads.many_untilClosed skipsFeeds_docs reads_docs_nil shrinks collects

/-- Line feeds in front of a declaration are skipped. -/
theorem skipsFeeds_declaration? (source : List Char) : SkipsFeeds (declaration? source) := by
  rw [declaration?_eq]
  exact skipsFeeds_docs.bind _

/-- A declaration is read as its docs and what stands below them. -/
theorem reads_declaration? {source : List Char} {docs : List Text} (areDocs : AreDocs docs)
    {kind : Kind} {pieces : List Piece} {rule : Rule Declaration} {declaration : Declaration}
    (begins : ∃ slice value rest, pieces = .token kind slice value :: rest)
    (noSpacing : NotSpacing kind) (declares : declarationOf source docs kind = some rule)
    (read : ∀ place, Reads place rule pieces declaration before) :
    Reads place (declaration? source) (ofDocs docs ++ pieces) (some declaration) before := by
  obtain ⟨slice, value, rest, rfl⟩ := begins
  rw [declaration?_eq]
  refine (reads_docs fun doc member => (areDocs doc member).textual).bind ?_ fun _ _ => noSpacing
  intro more finish position ended next
  obtain ⟨further, done⟩ := ((read _).map rfl : Reads _ _ _ (some declaration) before) more finish
    position ended next
  refine ⟨further, ?_⟩
  rw [declarationBelow, Stream.current_of_cons rfl, declares]
  exact done

/-- A type that stands alone is read behind the word that declares it. -/
theorem reads_typeDecl {source : List Char} {docs : List Text} (areDocs : AreDocs docs)
    {name : Text} {pieces : List Piece} {type : TypeDecl}
    (read : ∀ place, Reads place (typeBody docs) (.name name :: pieces) type before) :
    Reads place (declaration? source)
      (ofDocs docs ++ keyword .type :: .blank :: .name name :: pieces) (some (.types [type]))
      before := by
  refine reads_declaration? areDocs ⟨_, _, _, rfl⟩ (notSpacing_keyword .type) rfl fun place =>
    Reads.map ?_ rfl
  refine (reads_expect (.keyword .type) _ _).bind_token (.blank ?_)
  exact (reads_accepts_of_ne (.mark .leftParen)).bind_peek ((read _).map rfl) fun _ _ =>
    (wordKind_apart _ .leftParen).2.1

/-- A struct is read as its name and its members between braces. -/
theorem reads_struct {name : Text} {docs : List Text} {members : List Member} {pieces : List Piece}
    (isName : name.IsName) (collects : ∀ place, Collects place member? pieces members Anything) :
    Reads place (typeBody docs)
      (.name name :: .blank :: mark .leftBrace :: feed :: (pieces ++ [mark .rightBrace]))
      (.struct name members docs) Anything := by
  refine (reads_name name).bind_token (.blank ?_)
  refine (reads_accepts_of_ne (.keyword .struct)).bind_peek ?_ fun _ _ => by simp
  refine (reads_accepts (.mark .leftBrace) _ _).bind_token ?_
  refine (reads_members collects).map ?_
  rw [text_plain isName.textual]

/-- A name for a type is read up to the end of its line. -/
theorem reads_synonym {name : Text} {docs : List Text} {target : TypeExpr} {pieces : List Piece}
    (isName : name.IsName) (written : target.Written pieces) :
    Reads place (typeBody docs)
      (.name name :: .blank :: mark .equals :: .blank :: (pieces ++ [feed]))
      (.alias name (some target) docs) Anything := by
  refine (reads_name name).bind_token (.blank ?_)
  refine (reads_accepts_of_ne (.keyword .struct)).bind_peek ?_ fun _ _ => by simp
  refine (reads_accepts_of_ne (.mark .leftBrace)).bind_peek ?_ fun _ _ => by simp
  refine (reads_accepts (.mark .equals) _ _).bind_token (.blank ?_)
  refine (reads_typeExpr written).bind ?_ fun _ _ => by simp
  refine reads_lineEnd.map ?_
  rw [text_plain isName.textual]

/-- The lines of a type declaration list it. -/
theorem lists_type {source : List Char} {type : TypeDecl} (wellFormed : type.WellFormed) :
    Lists (declaration? source) type.lines [.types [type]] := by
  cases wellFormed with
  | @struct name members docs isName fields areDocs =>
    obtain ⟨pieces, written, collects⟩ := lists_members fields
    have head : WrittenAs [Line.ofWords ["type".toList, name.chars, ['\x7b']]]
        ([keyword .type, .blank, .name name, .blank, mark .leftBrace] ++ [feed]) := by
      refine .line ?_ fun flows => ?_
      · rw [Line.ofWords_cons (by decide)]
        simp [keyword, Piece.name, plain, mark, chars, Keyword.spelling, Mark.char,
          isName.spelled.ne_nil]
      · exact .keyword .type open_feed (.blank (wordlike_keyword _) (.name isName open_blank
          (.blank (wordlike_name _) (.mark .leftBrace open_blank.wordlike (.feed flows)))))
    have last : WrittenAs [['\x7d']] ([mark .rightBrace] ++ [feed]) :=
      .line rfl fun flows => .mark .rightBrace open_feed.wordlike (.feed flows)
    refine ⟨_, (((writtenAs_ofDocs areDocs).append head).append written).append last,
      fun place => ?_⟩
    have collected : Collects place (declaration? source) (_ ++ [feed])
        [.types [.struct name members docs]] Anything :=
      .line (skipsFeeds_declaration? source)
        (reads_typeDecl areDocs fun _ => (reads_struct isName collects).weaken fun _ _ => trivial)
    simpa using collected
  | @synonym name target docs isName wellFormed areDocs =>
    obtain ⟨pieces, written⟩ := wellFormed
    have line : WrittenAs [Line.ofWords ["type".toList, name.chars, ['='], target.name.chars]]
        ([keyword .type, .blank, .name name, .blank, mark .equals, .blank] ++ pieces ++
          [feed]) := by
      refine .line ?_ fun flows => ?_
      · rw [Line.ofWords_cons (by decide)]
        simp [keyword, Piece.name, plain, mark, chars, Keyword.spelling, Mark.char,
          isName.spelled.ne_nil, written.text, written.chars_ne_nil]
      · rw [List.append_assoc]
        refine .keyword .type open_feed (.blank (wordlike_keyword _) (.name isName open_blank
          (.blank (wordlike_name _) (.mark .equals open_blank.wordlike
            (.blank (open_mark _).wordlike (written.flows open_blank fun last _ => .feed flows))))))
    refine ⟨_, (writtenAs_ofDocs areDocs).append line, fun place => .single ?_⟩
    simpa using reads_typeDecl areDocs fun _ => reads_synonym isName written

end Rule

end ApiDescription
