import ApiDescription.Proofs.Token.Insertion

/-!
# Quoted texts and the ends of lines

Line feeds separate the lines of a description, and only a raw text and a block comment are
meant to go on over one. A quoted text ends with its line as well, unless an escape stands at
the end of the line: the character behind the backslash is taken whatever it is, a line feed
included.

Whether a character is escaped is told by the backslashes directly before it. With an odd
number of them the last one begins an escape. That is how the main statement speaks of the line
feeds inside quoted texts, and of the quotes and line ends that do not close one.
-/

namespace ApiDescription

namespace Lexeme

/-- The number of backslashes that some characters end with. -/
def backslashes (before : List Char) : Nat := (before.reverse.takeWhile (· = '\\')).length

/-- Whether characters between quotes escape the character behind them. -/
def Escapes (before : List Char) : Prop := backslashes before % 2 = 1

instance (before : List Char) : Decidable (Escapes before) :=
  inferInstanceAs (Decidable (_ = 1))

/-- Backslashes before another character do not count. -/
theorem backslashes_append_cons {c : Char} (other : c ≠ '\\') (front before : List Char) :
    backslashes (front ++ c :: before) = backslashes before := by
  simp only [backslashes, List.reverse_append, List.reverse_cons, List.append_assoc,
    List.singleton_append, List.takeWhile_append, List.takeWhile_cons, other, decide_false,
    Bool.false_eq_true, if_false, List.append_nil]
  split
  · next all => rw [all, List.length_reverse]
  · rfl

/-- A character that begins no escape does not change what is escaped behind it. -/
theorem escapes_cons {c : Char} (other : c ≠ '\\') (before : List Char) :
    Escapes (c :: before) ↔ Escapes before := by
  rw [Escapes, Escapes, ← List.nil_append (c :: before), backslashes_append_cons other]

/-- An escape does not change what is escaped behind it. -/
theorem escapes_escape (c : Char) (before : List Char) :
    Escapes ('\\' :: c :: before) ↔ Escapes before := by
  by_cases backslash : c = '\\'
  · subst backslash
    simp only [Escapes, backslashes, List.reverse_cons, List.append_assoc,
      List.singleton_append, List.takeWhile_append]
    split
    · next all =>
      rw [List.takeWhile_eq_self_iff.mpr (by simp), all, List.length_append, List.length_cons,
        List.length_singleton]
      omega
    · rfl
  · rw [Escapes, Escapes, ← List.singleton_append, backslashes_append_cons backslash]

/-- Behind the opening quote nothing is escaped. -/
theorem not_escapes_nil : ¬Escapes [] := by decide

/-- A line feed between quotes is escaped. -/
theorem QuotedAs.escapes_of_lineFeed {body value before after : List Char}
    (quoted : QuotedAs body value) (split : body = before ++ '\n' :: after) : Escapes before := by
  induction quoted generalizing before with
  | nil => simp at split
  | @plain c body value quote backslash feed rest inductionHypothesis =>
    obtain ⟨rfl, feedHere⟩ | ⟨before, rfl, later⟩ := List.cons_eq_append_iff.mp split
    · cases feedHere
      exact absurd rfl feed
    · exact (escapes_cons backslash before).mpr (inductionHypothesis later)
  | @escaped c body value rest inductionHypothesis =>
    obtain ⟨rfl, feedHere⟩ | ⟨behind, rfl, later⟩ := List.cons_eq_append_iff.mp split
    · cases feedHere
    obtain ⟨rfl, -⟩ | ⟨before, rfl, last⟩ := List.cons_eq_append_iff.mp later
    · decide
    · exact (escapes_escape c before).mpr (inductionHypothesis last)

/-- Characters that hold no closing quote are not closed by what follows them, if that is the
end of the text or a line feed that is not escaped. -/
theorem quotedBody_of_unclosed {line more : List Char} (inLine : '\n' ∉ line)
    (unclosed : ∀ before after, line = before ++ '"' :: after → Escapes before)
    (ended : more = [] ∨ more.head? = some '\n' ∧ ¬Escapes line) :
    (quotedBody (line ++ more)).2.2.head? ≠ some '"' := by
  fun_induction quotedBody line with
  | case1 =>
    rcases ended with rfl | ⟨feed, -⟩
    · simp [quotedBody]
    · obtain ⟨more, rfl⟩ := List.head?_eq_some_iff.mp feed
      simp [quotedBody]
  | case2 =>
    rcases ended with rfl | ⟨-, goesOn⟩
    · simp [quotedBody]
    · exact absurd (by decide) goesOn
  | case3 c rest _ _ _ _ inductionHypothesis =>
    simp only [List.cons_append, quotedBody]
    rw [escapes_escape] at ended
    refine inductionHypothesis (by simp_all) (fun before after split => ?_) ended
    rw [← escapes_escape c]
    exact unclosed ('\\' :: c :: before) after (by rw [split]; rfl)
  | case4 c rest _ _ closes =>
    rcases closes with rfl | rfl
    · exact absurd (unclosed [] rest rfl) not_escapes_nil
    · simp at inLine
  | case5 c rest lone escape goesOn _ _ _ _ inductionHypothesis =>
    have backslash : c ≠ '\\' := by
      rintro rfl
      cases rest <;> simp_all
    have passes : (quotedBody (c :: rest ++ more)).2.2 = (quotedBody (rest ++ more)).2.2 := by
      rw [List.cons_append]
      cases rest ++ more <;> simp [quotedBody, backslash, goesOn]
    rw [escapes_cons backslash] at ended
    rw [passes]
    refine inductionHypothesis (by simp_all) (fun before after split => ?_) ended
    rw [← escapes_cons backslash]
    exact unclosed (c :: before) after (by rw [split]; rfl)

/-- Only a line feed and a quoted text, a raw text or a block comment hold line feeds. -/
theorem Spells.escapes_of_lineFeed {kind : Kind} {slice before after : List Char}
    {value : String} (spelled : Spells kind slice value) (noFeed : kind ≠ .newline)
    (noRaw : kind ≠ .rawText) (noBlock : ¬(kind = .comment ∧ slice[1]? = some '*'))
    (split : slice = before ++ '\n' :: after) : kind = .quotedText ∧ Escapes before := by
  have noLineFeed (outside : '\n' ∉ slice) : kind = .quotedText ∧ Escapes before :=
    absurd (by rw [split]; simp) outside
  by_cases isInline : kind.isInline = true
  · exact noLineFeed (spelled.not_mem_of_isInline isInline)
  cases spelled with
  | newline => exact absurd rfl noFeed
  | rawText => exact absurd rfl noRaw
  | blockComment => exact absurd ⟨rfl, rfl⟩ noBlock
  | lineComment within => exact noLineFeed (by simpa using within)
  | @quotedText body value quoted =>
    refine ⟨rfl, ?_⟩
    obtain ⟨rfl, feedHere⟩ | ⟨before, rfl, later⟩ := List.cons_eq_append_iff.mp split
    · cases feedHere
    obtain rfl | ⟨inside, c, rfl⟩ := after.eq_nil_or_concat
    · cases (List.append_inj' later rfl).2
    · rw [List.concat_eq_append, ← List.cons_append, ← List.append_assoc] at later
      rw [escapes_cons (by decide)]
      exact quoted.escapes_of_lineFeed (List.append_inj_left' later rfl)
  | @word c rest _ _ _ =>
    refine absurd ?_ isInline
    unfold Scan.wordKind
    cases Keyword.ofSpelling? (String.ofList (c :: rest)) <;> rfl
  | path | number | marker | mark => exact absurd rfl isInline

/-- A quote that is not closed begins no lexeme. -/
theorem read_of_unclosed {following : List Char}
    (unclosed : (quotedBody following).2.2.head? ≠ some '"') (last? : Option Char) :
    read last? '"' following = .error (.unterminatedText, (quotedBody following).2.1 + 1) := by
  rw [read_quotedText, if_neg unclosed]

end Lexeme

/-- The scanner reads the characters before a place as tokens and a gap, so that the next lexeme
begins there. -/
def Scan.Reaches (before behind : List Char) : Prop :=
  ∃ tokens cursor gap, Rounds Scan.token? (Cursor.ofText (before ++ behind)) tokens cursor ∧
    (∀ c ∈ gap, Lexeme.isGap c = true) ∧ cursor.rest = gap ++ behind

/-- A quote that is not closed in its line, where the line end is not escaped, is reported as
the start of an unterminated text. -/
theorem Scan.Reaches.tokenize_eq_error {before line more : List Char}
    (reaches : Scan.Reaches before ('"' :: (line ++ more)))
    (unclosed : (Lexeme.quotedBody (line ++ more)).2.2.head? ≠ some '"') :
    tokenize (before ++ '"' :: (line ++ more)) =
      .error (.located .unterminatedText (Location.start.after before)) := by
  obtain ⟨tokens, cursor, gap, run, blank, ahead⟩ := reaches
  obtain ⟨placed, text⟩ := Scan.placed_of_rounds run (Cursor.placed_ofText _)
  have skipped := Cursor.skip_length ahead
  have start : (cursor.skip gap.length).location = Location.start.after before := by
    have passed : (cursor.skip gap.length).before.reverse = before := by
      apply Cursor.before_eq
      rw [Cursor.text_skip, text, skipped]
      rfl
    rw [placed.skip gap.length, passed]
  have failed : ∃ state, Scan.token? cursor =
      roundEnd (some (.located .unterminatedText (Location.start.after before))) state := by
    rw [Scan.token?_apply, ahead, Scan.countWhile_gap blank (by simp [Lexeme.isGap]), ← start]
    simp only [skipped, Lexeme.read_of_unclosed unclosed]
    exact ⟨_, rfl⟩
  obtain ⟨state, failed⟩ := failed
  exact tokenize_of_rounds run failed

/-- A token that may go on over line feeds: a line feed, a raw text or a block comment. -/
def Token.SpansLines (text : List Char) (token : Token) : Prop :=
  token.kind = .newline ∨ token.kind = .rawText ∨
    token.kind = .comment ∧ (token.slice text)[1]? = some '*'

/-- A token that is not meant to go on over line feeds holds one only if it is a quoted text, and
then behind a backslash that escapes it. A quote whose line holds no closing quote is reported as
the start of an unterminated text, unless the end of the line is escaped. -/
theorem tokenize_lines (text : List Char) :
    (∀ tokens, tokenize text = .ok tokens → ∀ token ∈ tokens, ¬token.SpansLines text →
      ∀ before after, token.slice text = before ++ '\n' :: after →
        token.kind = .quotedText ∧ Lexeme.Escapes before) ∧
    ∀ before line more, text = before ++ '"' :: (line ++ more) →
      Scan.Reaches before ('"' :: (line ++ more)) → '\n' ∉ line →
      (∀ opening closing, line = opening ++ '"' :: closing → Lexeme.Escapes opening) →
      more = [] ∨ more.head? = some '\n' ∧ ¬Lexeme.Escapes line →
      tokenize text = .error (.located .unterminatedText (Location.start.after before)) := by
  refine ⟨fun tokens read token member oneLine before after split => ?_, ?_⟩
  · obtain ⟨noFeed, noRaw, noBlock⟩ := by simpa only [Token.SpansLines, not_or] using oneLine
    obtain ⟨others, place, rfl, -, last, tiles, -, -⟩ := exists_tiles_of_tokenize read
    rcases List.mem_append.mp member with member | isFinish
    · exact (tiles.spelled token member).2.2.escapes_of_lineFeed noFeed noRaw noBlock split
    · have empty : token.slice text = [] := by
        rw [List.mem_singleton.mp isFinish]
        simp [Token.slice, sliceOf, Token.finish]
      simp [empty] at split
  · rintro before line more rfl reaches inLine unclosed ended
    exact reaches.tokenize_eq_error (Lexeme.quotedBody_of_unclosed inLine unclosed ended)

/-- A backslash takes the line feed behind it into the quoted text. Two of them do not. -/
theorem tokenize_lines_backslash :
    (let text := "k \"a\\\nb\"".toList
     let token : Token := ⟨.quotedText, "a\\\nb", ⟨2, 1, 3⟩, 8⟩
     (∃ tokens, tokenize text = .ok tokens ∧ token ∈ tokens) ∧
       token.slice text = "\"a\\".toList ++ '\n' :: "b\"".toList ∧
       Lexeme.Escapes "\"a\\".toList) ∧
    tokenize "k \"a\\\\\nb\"".toList = .error ⟨.unterminatedText, 1, 3⟩ := by
  constructor
  · intro text token
    have read : tokenize text = .ok
        [⟨.identifier, "k", ⟨0, 1, 1⟩, 1⟩, token, Token.finish ⟨8, 2, 3⟩] := by
      decide +kernel
    have member : token ∈ [⟨.identifier, "k", ⟨0, 1, 1⟩, 1⟩, token, Token.finish ⟨8, 2, 3⟩] := by
      simp
    have split : token.slice text = "\"a\\".toList ++ '\n' :: "b\"".toList := by decide
    have oneLine : ¬token.SpansLines text := by simp [Token.SpansLines, token]
    exact ⟨⟨_, read, member⟩, split,
      ((tokenize_lines text).1 _ read token member oneLine _ _ split).2⟩
  · let line := "a\\\\".toList
    let more := "\nb\"".toList
    let start := Cursor.ofText ("k ".toList ++ '"' :: (line ++ more))
    have read : Scan.token? start =
        .ok (some ⟨.identifier, "k", ⟨0, 1, 1⟩, 1⟩) (start.skip 1) := rfl
    have reaches : Scan.Reaches "k ".toList ('"' :: (line ++ more)) :=
      ⟨_, _, [' '], .single read, by simp [Lexeme.isGap], rfl⟩
    have noQuote : '"' ∉ line := by simp [line]
    exact (tokenize_lines _).2 _ line more rfl reaches (by decide)
      (fun _ _ split => absurd (by rw [split]; simp) noQuote) (.inr ⟨rfl, by decide⟩)

/-- Not every quoted text ends with its line. -/
theorem not_forall_tokenize_lines :
    ¬∀ text tokens, tokenize text = .ok tokens → ∀ token ∈ tokens, ¬token.SpansLines text →
      '\n' ∉ token.slice text := by
  intro claim
  let text := "\"a\\\nb\"".toList
  let token : Token := ⟨.quotedText, "a\\\nb", ⟨0, 1, 1⟩, 6⟩
  have read : tokenize text = .ok [token, Token.finish ⟨6, 2, 3⟩] := by decide +kernel
  exact claim text _ read token (by simp) (by simp [Token.SpansLines, token]) (by decide)

end ApiDescription
