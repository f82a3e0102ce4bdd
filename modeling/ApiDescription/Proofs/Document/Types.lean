import ApiDescription.Proofs.Document.WellFormed
import ApiDescription.Proofs.Grammar.Reads

/-!
# Written types

A type expression is read from the pieces it is written in, and these pieces spell
its name. All of them stand on one line and no two of them run into each other, so
that a type can stand behind a blank or a bracket and in front of what ends a word.
-/

namespace ApiDescription

open Piece

namespace Text

variable {text : Text} {kind : Kind}

/-- A word is spelled with the characters of identifiers. -/
theorem IsLexeme.word (lexeme : text.IsLexeme kind)
    (isName : kind = .identifier ∨ ∃ word, kind = .keyword word) :
    (∃ c rest, text.chars = c :: rest ∧ Lexeme.beginsIdentifier c = true ∧
      ∀ d ∈ rest, Lexeme.inIdentifier d = true) ∧
      kind = Scan.wordKind (String.ofList text.chars) := by
  obtain ⟨-, spelled⟩ := lexeme
  generalize text.chars = slice at spelled
  generalize String.ofList slice = value at spelled
  cases spelled with
  | @word c rest begins _ inside => exact ⟨⟨c, rest, rfl, begins, inside⟩, rfl⟩
  | _ => simp at isName

/-- The kind of a word is that of an identifier or of a keyword. -/
theorem wordKind_cases (word : String) :
    Scan.wordKind word = .identifier ∨ ∃ keyword, Scan.wordKind word = .keyword keyword := by
  unfold Scan.wordKind
  cases Keyword.ofSpelling? word with
  | none => exact .inl rfl
  | some keyword => exact .inr ⟨keyword, rfl⟩

/-- An identifier is a name. -/
theorem IsLexeme.isName (lexeme : text.IsLexeme .identifier) :
    text.IsName ∧ plain .identifier text = .name text := by
  obtain ⟨-, kind⟩ := lexeme.word (.inl rfl)
  exact ⟨by rw [IsName, ← kind]; exact lexeme, by rw [Piece.name, ← kind]⟩

/-- A name is written with the characters of identifiers. -/
theorem IsName.inIdentifier (isName : text.IsName) :
    text.chars.head? ≠ some '/' ∧ ∀ c ∈ text.chars, Lexeme.inIdentifier c = true := by
  obtain ⟨⟨c, rest, chars, begins, inside⟩, -⟩ := IsLexeme.word isName (wordKind_cases _)
  rw [chars]
  refine ⟨?_, fun d member => ?_⟩
  · simpa using Lexeme.ne_of_class begins (by decide +kernel)
  · rcases List.mem_cons.mp member with rfl | member
    · exact Lexeme.inIdentifier_of_beginsIdentifier begins
    · exact inside d member

/-- A name stands on one line. -/
theorem IsName.inLine (isName : text.IsName) : '\n' ∉ text.chars := fun member =>
  absurd (isName.inIdentifier.2 _ member) (by decide +kernel)

/-- A number stands on one line and does not begin like a comment. -/
theorem IsLexeme.number (lexeme : text.IsLexeme .number) :
    text.chars.head? ≠ some '/' ∧ '\n' ∉ text.chars := by
  obtain ⟨-, spelled⟩ := lexeme
  generalize text.chars = slice at spelled
  generalize String.ofList slice = value at spelled
  generalize kind : Kind.number = found at spelled
  cases spelled with
  | @number c rest digit inside =>
    refine ⟨by simpa using Lexeme.ne_of_class digit (by decide), ?_⟩
    rw [List.mem_cons, not_or]
    exact ⟨(Lexeme.ne_of_class digit (by decide)).symm,
      fun member => absurd (inside _ member) (by decide +kernel)⟩
  | word =>
    rcases wordKind_cases (String.ofList _) with identifier | ⟨keyword, isKeyword⟩
    · exact absurd (kind.trans identifier) (by decide)
    · exact absurd (kind.trans isKeyword) (by simp)
  | _ => exact nomatch kind

end Text

namespace Piece

/-- A piece that is a token inside a line. -/
def IsWord : Piece → Prop
  | blank => False
  | token kind _ _ => kind ≠ .newline

variable {before : Piece} {rest : List Piece} {text : Text}

/-- A name is continued by the characters of identifiers. -/
theorem wordlike_name (text : Text) : (name text).Wordlike := fun c outside =>
  (Lexeme.continues_wordKind _ _ c).trans outside

/-- A name may stand where nothing is continued. -/
theorem Flows.name (isName : text.IsName) (opens : before.Open) (flows : Flows (.name text) rest) :
    Flows before (.name text :: rest) :=
  ⟨isName.spelled, opens.meets isName.inIdentifier.1, flows⟩

end Piece

namespace TypeExpr.Written

variable {type : TypeExpr} {pieces : List Piece}

/-- A type is written as it is named. -/
theorem text (written : type.Written pieces) : textOf pieces = type.name.chars := by
  induction written with
  | name _ => simp [plain, chars]
  | qualified _ _ => simp [plain, mark, chars, Text.ofString, Mark.char]
  | interface => decide
  | pointer _ inductionHypothesis =>
    simp [pointerTo, TypeExpr.name, mark, chars, Mark.char, Text.ofString, inductionHypothesis]
  | slice _ inductionHypothesis | array _ _ inductionHypothesis =>
    simp [arrayOf, TypeExpr.name, mark, plain, chars, Mark.char, Text.ofString, inductionHypothesis]
  | map _ _ keyHypothesis inductionHypothesis =>
    simp [mapOf, TypeExpr.name, keyword, mark, chars, Keyword.spelling, Mark.char, Text.ofString,
      keyHypothesis, inductionHypothesis]

/-- A type stands on one line. -/
theorem inLine (written : type.Written pieces) : '\n' ∉ textOf pieces := by
  induction written with
  | name lexeme => simpa [plain, chars] using lexeme.isName.1.inLine
  | qualified lexeme secondLexeme =>
    simpa [plain, mark, chars, Mark.char] using
      ⟨lexeme.isName.1.inLine, secondLexeme.isName.1.inLine⟩
  | interface => decide
  | pointer _ inductionHypothesis | slice _ inductionHypothesis =>
    simpa [mark, chars, Mark.char] using inductionHypothesis
  | array lexeme _ inductionHypothesis =>
    simpa [mark, plain, chars, Mark.char] using ⟨lexeme.number.2, inductionHypothesis⟩
  | map _ _ keyHypothesis inductionHypothesis =>
    simpa [keyword, mark, chars, Keyword.spelling, Mark.char] using
      ⟨keyHypothesis, inductionHypothesis⟩

/-- A type can be read where nothing is continued, in front of what may stand behind a word. -/
theorem flows (written : type.Written pieces) {before : Piece} {rest : List Piece}
    (opens : before.Open) (behind : ∀ last : Piece, last.Wordlike → Flows last rest) :
    Flows before (pieces ++ rest) := by
  induction written generalizing before rest with
  | @name word lexeme =>
    rw [lexeme.isName.2]
    exact .name lexeme.isName.1 opens (behind _ (wordlike_name word))
  | @qualified first second lexeme secondLexeme =>
    rw [lexeme.isName.2, secondLexeme.isName.2]
    exact .name lexeme.isName.1 opens (.mark .dot (wordlike_name first)
      (.name secondLexeme.isName.1 (open_mark _) (behind _ (wordlike_name second))))
  | interface =>
    exact .keyword .interface opens (.mark .leftBrace (wordlike_keyword _)
      (.mark .rightBrace (open_mark _).wordlike (behind _ (open_mark _).wordlike)))
  | pointer _ inductionHypothesis =>
    exact .mark .star opens.wordlike (inductionHypothesis (open_mark _) behind)
  | slice _ inductionHypothesis =>
    exact .mark .leftBracket opens.wordlike (.mark .rightBracket (open_mark _).wordlike
      (inductionHypothesis (open_mark _) behind))
  | @array size value pieces lexeme _ inductionHypothesis =>
    have closing : Meets (plain .number size) (mark .rightBracket) :=
      ⟨by simp [mark, plain, chars, Mark.char, continues, Lexeme.continues]; decide +kernel,
        suits_of_ne_slash (by decide)⟩
    exact .mark .leftBracket opens.wordlike
      ⟨lexeme.spelled, (open_mark _).meets lexeme.number.1, .mark .rightBracket, closing,
        inductionHypothesis (open_mark _) behind⟩
  | map _ _ keyHypothesis inductionHypothesis =>
    rw [List.cons_append, List.cons_append, List.append_assoc]
    refine .keyword .map opens (.mark .leftBracket (wordlike_keyword _)
      (keyHypothesis (open_mark _) fun last wordlike => ?_))
    exact .mark .rightBracket wordlike (inductionHypothesis (open_mark _) behind)

/-- A type begins with a token that types can begin with. -/
theorem starts (written : type.Written pieces) :
    ∃ kind ∈ Rule.typeStarts, ∀ rest after, firstKind (pieces ++ rest) after = kind := by
  cases written <;> exact ⟨_, by decide, fun _ _ => rfl⟩

/-- A type is written in tokens other than line feeds. -/
theorem inWords (written : type.Written pieces) : ∀ piece ∈ pieces, piece.IsWord := by
  induction written with
  | name _ | qualified _ _ | interface => simp [IsWord, plain, mark, keyword]
  | pointer _ inductionHypothesis | slice _ inductionHypothesis | array _ _ inductionHypothesis =>
    simpa [IsWord, plain, mark] using inductionHypothesis
  | map _ _ keyHypothesis inductionHypothesis =>
    simpa [IsWord, keyword, mark, or_imp, forall_and] using ⟨keyHypothesis, inductionHypothesis⟩

end TypeExpr.Written

namespace Rule

variable {place : Location} {before : Kind → Prop}

/-- A type is read as its first token and what stands behind it. -/
theorem reads_typeWithin_succ {depth : Nat} {kind : Kind} {slice : List Char} {value : String}
    {rest : List Piece} {type : TypeExpr} {rule : Rule TypeExpr}
    (begins : typeBehind depth ⟨kind, value, place, (place.after slice).offset⟩ = some rule)
    (later : Reads (place.after slice) rule rest type before) :
    Reads place (typeWithin (depth + 1)) (.token kind slice value :: rest) type before := by
  intro more finish position ended next
  obtain ⟨further, read⟩ := later more finish (position + 1) ended next
  refine ⟨further, ?_⟩
  rw [typeWithin_succ_apply, Stream.current_of_cons rfl, begins]
  exact read

/-- A name that no dot follows is read as it is. -/
theorem reads_qualifiedName (first : Text) :
    Reads place (qualifiedName first) [] first (· ≠ .mark .dot) :=
  (reads_accepts_of_ne (.mark .dot)).bind_peek (.pure first) fun _ next => next

/-- A dot and an identifier behind a name belong to it. -/
theorem reads_qualifiedName_dot {second : Text} (textual : second.isTextual = true) (first : Text) :
    Reads place (qualifiedName first) [mark .dot, plain .identifier second]
      (first ++ Text.ofString "." ++ second) before := by
  refine (reads_accepts (.mark .dot) _ _).bind_token ?_
  refine Reads.weaken ((reads_expect .identifier _ _).map ?_) fun _ _ => trivial
  rw [text_plain textual]

/-- A depth that allows for some pieces allows for one piece fewer one level deeper. -/
theorem exists_depth {piece : Piece} {pieces : List Piece} {depth : Nat}
    (enough : (piece :: pieces).length ≤ depth) :
    ∃ fewer, depth = fewer + 1 ∧ pieces.length ≤ fewer := by
  rw [List.length_cons] at enough
  exact ⟨depth - 1, by omega, by omega⟩

/-- Every type is read from the pieces it is written in, as long as the depth allows for them. -/
theorem reads_typeWithin {type : TypeExpr} {pieces : List Piece} (written : type.Written pieces)
    {depth : Nat} (enough : pieces.length ≤ depth) :
    Reads place (typeWithin depth) pieces type (· ≠ .mark .dot) := by
  induction written generalizing place depth with
  | @name word lexeme =>
    obtain ⟨depth, rfl, -⟩ := exists_depth enough
    refine reads_typeWithin_succ rfl ((reads_qualifiedName _).map ?_)
    rw [text_plain lexeme.textual]
  | @qualified first second lexeme secondLexeme =>
    obtain ⟨depth, rfl, -⟩ := exists_depth enough
    refine reads_typeWithin_succ rfl ((reads_qualifiedName_dot secondLexeme.textual _).map ?_)
    rw [text_plain lexeme.textual]
  | interface =>
    obtain ⟨depth, rfl, -⟩ := exists_depth enough
    refine reads_typeWithin_succ rfl ((reads_expect (.mark .leftBrace) _ _).bind_token ?_)
    exact ((reads_expect (.mark .rightBrace) _ _).map rfl).weaken fun _ _ => trivial
  | @pointer target pieces _ inductionHypothesis =>
    obtain ⟨depth, rfl, fits⟩ := exists_depth enough
    refine reads_typeWithin_succ rfl (Reads.map ?_ rfl)
    exact inductionHypothesis fits
  | @slice value pieces _ inductionHypothesis =>
    obtain ⟨depth, rfl, fits⟩ := exists_depth enough
    refine reads_typeWithin_succ rfl ((reads_textIf_of_ne .number).bind_peek ?_ ?_)
    · refine (reads_expect (.mark .rightBracket) _ _).bind_token (Reads.map ?_ rfl)
      exact inductionHypothesis (Nat.le_of_succ_le fits)
    · exact fun _ _ => by simp
  | @array size value pieces lexeme _ inductionHypothesis =>
    obtain ⟨depth, rfl, fits⟩ := exists_depth enough
    refine reads_typeWithin_succ rfl ((reads_textIf lexeme.textual .number).bind_token ?_)
    refine (reads_expect (.mark .rightBracket) _ _).bind_token (Reads.map ?_ rfl)
    exact inductionHypothesis (Nat.le_of_succ_le (Nat.le_of_succ_le fits))
  | @map key value keyPieces pieces _ _ keyHypothesis inductionHypothesis =>
    obtain ⟨depth, rfl, fits⟩ := exists_depth enough
    simp only [List.length_cons, List.length_append] at fits
    refine reads_typeWithin_succ rfl ((reads_expect (.mark .leftBracket) _ _).bind_token ?_)
    refine Reads.bind (keyHypothesis (by omega)) ?_ fun _ _ => by simp
    refine (reads_expect (.mark .rightBracket) _ _).bind_token (Reads.map ?_ rfl)
    exact inductionHypothesis (by omega)

/-- Words are tokens on one line. -/
theorem length_le_lineLength {pieces : List Piece} (inWords : ∀ piece ∈ pieces, piece.IsWord)
    (place : Location) (more : List Token) (finish : Token) (position : Nat) :
    pieces.length ≤ lineLength ⟨tokensAt place pieces ++ more, finish, position⟩ := by
  induction pieces generalizing place with
  | nil => exact Nat.zero_le _
  | cons piece pieces inductionHypothesis =>
    have isWord := inWords piece List.mem_cons_self
    cases piece with
    | blank => exact isWord.elim
    | token kind slice value =>
      have later := inductionHypothesis
        (fun other member => inWords other (List.mem_cons_of_mem _ member)) (place.after slice)
      have goesOn : decide (kind ≠ .newline) = true := decide_eq_true isWord
      simp only [lineLength, tokensAt, List.cons_append, List.takeWhile_cons, goesOn, if_true,
        List.length_cons] at later ⊢
      omega

/-- Every type is read from the pieces it is written in. -/
theorem reads_typeExpr {type : TypeExpr} {pieces : List Piece} (written : type.Written pieces) :
    Reads place typeExpr pieces type (· ≠ .mark .dot) := by
  intro more finish position ended next
  have enough := length_le_lineLength written.inWords place more finish position
  exact reads_typeWithin written (Nat.le_succ_of_le enough) more finish position ended next

end Rule

end ApiDescription
