import ApiDescription.Proofs.Token.Tiling
import Mathlib.Data.List.Chain

/-!
# The values of tokens

What a token says follows from its kind: a path begins with a slash, a raw text stands
between backticks, a comment begins like one, and a name has the characters of names. Only
a path owes something to the token before it, because two slashes are a path behind a
colon, and a name in front of a path does not end with one.
-/

namespace ApiDescription

namespace Text

/-- A text that begins as comments do. -/
def BeginsComment (text : Text) : Prop :=
  ∃ rest, text = ofChars ('/' :: '/' :: rest) ∨ text = ofChars ('/' :: '*' :: rest)

/-- A text between backticks that holds no others. -/
def IsTag (text : Text) : Prop :=
  ∃ body, text = ofChars ('\x60' :: body ++ ['\x60']) ∧ '\x60' ∉ body

/-- A text that begins with a slash and goes on with neither a second one nor a star, and that holds
no blanks and no parentheses. -/
def IsPath (text : Text) : Prop :=
  ∃ rest, text = ofChars ('/' :: rest) ∧ rest.head? ≠ some '/' ∧ rest.head? ≠ some '*' ∧
    ∀ c ∈ rest, isBlank c = false ∧ c ≠ '(' ∧ c ≠ ')'

/-- What is outside a class stays in front when characters of the class are dropped behind it. -/
theorem dropEndWhile_cons {α : Type} {p : α → Bool} {a : α} (outside : p a = false)
    (list : List α) : dropEndWhile p (a :: list) = a :: dropEndWhile p list := by
  unfold dropEndWhile
  rw [List.reverse_cons, List.dropWhile_append]
  cases left : list.reverse.dropWhile p with
  | nil => simp [outside]
  | cons b rest => simp

end Text

namespace Lexeme.Spells

variable {kind : Kind} {slice : List Char} {value : String}

/-- A comment begins with two slashes or with a slash and a star. -/
theorem slice_of_comment (spelled : Spells kind slice value) (isComment : kind = .comment) :
    ∃ body, slice = '/' :: '/' :: body ∨ slice = '/' :: '*' :: body := by
  cases spelled with
  | @lineComment body _ => exact ⟨body, .inl rfl⟩
  | @blockComment body _ => exact ⟨body, .inr rfl⟩
  | word _ _ _ =>
    unfold Scan.wordKind at isComment
    split at isComment <;> cases isComment
  | _ => simp at isComment

/-- A path begins with a slash and no comment, and goes on with characters of paths. -/
theorem slice_of_path (spelled : Spells kind slice value) (isPath : kind = .path) :
    ∃ rest, slice = '/' :: rest ∧ rest.head? ≠ some '*' ∧ ∀ c ∈ rest, inPath c = true := by
  cases spelled with
  | @path rest inside noComment => exact ⟨rest, rfl, noComment, inside⟩
  | word _ _ _ =>
    unfold Scan.wordKind at isPath
    split at isPath <;> cases isPath
  | _ => simp at isPath

/-- A raw text stands between backticks. -/
theorem slice_of_rawText (spelled : Spells kind slice value) (isRaw : kind = .rawText) :
    ∃ body, slice = '\x60' :: body ++ ['\x60'] ∧ '\x60' ∉ body := by
  cases spelled with
  | @rawText body inside => exact ⟨body, rfl, inside⟩
  | word _ _ _ =>
    unfold Scan.wordKind at isRaw
    split at isRaw <;> cases isRaw
  | _ => simp at isRaw

/-- A name has the characters of identifiers. -/
theorem inIdentifier_of_isName {token : Token} (spelled : Spells token.kind slice value)
    (isName : token.isName = true) : ∀ c ∈ slice, inIdentifier c = true := by
  rw [Token.isName] at isName
  generalize token.kind = kind at spelled isName
  cases spelled with
  | @word c rest begins _ inside =>
    intro d member
    rcases List.mem_cons.mp member with rfl | member
    · exact inIdentifier_of_beginsIdentifier begins
    · exact inside d member
  | _ => simp at isName

/-- A name is a word. -/
theorem word_of_isName {token : Token} (spelled : Spells token.kind slice value)
    (isName : token.isName = true) :
    Spells (Scan.wordKind (String.ofList slice)) slice (String.ofList slice) := by
  rw [Token.isName] at isName
  generalize token.kind = kind at spelled isName
  cases spelled with
  | word begins noNumber inside => exact .word begins noNumber inside
  | _ => simp at isName

end Lexeme.Spells

/-- A name stands for its characters. -/
theorem Lexeme.valueOf_of_isName {token : Token} (isName : token.isName = true)
    (slice : List Char) : valueOf token.kind slice = slice := by
  cases kind : token.kind <;> simp [Token.isName, kind] at isName <;> rfl

/-- What a token says is what its characters stand for. -/
theorem Token.text_of_spells {token : Token} {slice : List Char}
    (spelled : Lexeme.Spells token.kind slice token.value) :
    token.text = Text.ofChars (Lexeme.valueOf token.kind slice) := by
  rw [Token.text, Text.ofString, spelled.value_eq, String.toList_ofList]

/-- A token that is spelled by some characters. -/
def Token.Spelled (token : Token) : Prop := ∃ slice, Lexeme.Spells token.kind slice token.value

namespace Token.Spelled

variable {token : Token}

/-- A token that is spelled is not the end of the text. -/
theorem goesOn (spelled : token.Spelled) : token.kind ≠ .endOfText :=
  spelled.choose_spec.ne_endOfText

/-- A comment begins as comments do. -/
theorem beginsComment (spelled : token.Spelled) (isComment : token.kind = .comment) :
    token.text.BeginsComment := by
  obtain ⟨slice, spelled⟩ := spelled
  have text := Token.text_of_spells spelled
  rw [text, isComment]
  obtain ⟨body, rfl | rfl⟩ := spelled.slice_of_comment isComment
  · refine ⟨Text.dropEndWhile (· = '\r') body, .inl ?_⟩
    rw [Lexeme.valueOf]
    simp [Text.dropEndWhile_cons]
  · exact ⟨body, .inr rfl⟩

/-- A name is not the empty interface, which has braces. -/
theorem ne_emptyInterface (spelled : token.Spelled) (isName : token.isName = true) :
    token.text ≠ TypeExpr.emptyInterface := by
  obtain ⟨slice, spelled⟩ := spelled
  have inside := spelled.inIdentifier_of_isName isName
  intro same
  rw [Token.text_of_spells spelled, Lexeme.valueOf_of_isName isName] at same
  have brace : CodePoint.char '\x7b' ∈ Text.ofChars slice := by
    rw [same]
    decide
  obtain ⟨found, isMember, isBrace⟩ := List.mem_map.mp brace
  cases isBrace
  exact absurd (inside _ isMember) (by decide +kernel)

/-- A raw text is a tag. -/
theorem isTag (spelled : token.Spelled) (isRaw : token.kind = .rawText) : token.text.IsTag := by
  obtain ⟨slice, spelled⟩ := spelled
  have text := Token.text_of_spells spelled
  obtain ⟨body, rfl, inside⟩ := spelled.slice_of_rawText isRaw
  exact ⟨body, by rw [text, isRaw]; rfl, inside⟩

/-- A path whose second character is no slash is one that is no comment. -/
theorem isPath (spelled : token.Spelled) (isPath : token.kind = .path)
    (apart : token.text[1]? ≠ some (.char '/')) : token.text.IsPath := by
  obtain ⟨slice, spelled⟩ := spelled
  have text := Token.text_of_spells spelled
  obtain ⟨rest, rfl, noStar, inside⟩ := spelled.slice_of_path isPath
  rw [isPath] at text
  refine ⟨rest, text, ?_, noStar, ?_⟩
  · intro slash
    refine apart ?_
    rw [text]
    cases rest with
    | nil => simp at slash
    | cons c rest =>
      obtain rfl : c = '/' := by simpa using slash
      rfl
  · intro c member
    simpa [Lexeme.inPath, and_assoc] using inside c member

end Token.Spelled

/-- Two tokens in turn, the second of which is no path with two slashes if the first is a name. -/
def Token.Apart (first second : Token) : Prop :=
  first.isName = true → second.kind = .path → second.text[1]? ≠ some (.char '/')

/-- Tokens in turn: no path with two slashes stands directly behind a name. -/
theorem Scan.isChain_apart {cursor last : Cursor} {tokens : List Token}
    (run : Rounds token? cursor tokens last) : tokens.IsChain Token.Apart := by
  induction run with
  | none _ => exact .nil
  | @more cursor next last token tokens read later inductionHypothesis =>
    cases later with
    | none _ => exact .singleton token
    | @more _ _ _ second _ readSecond _ =>
      refine .cons_cons ?_ inductionHypothesis
      intro isName isPath doubled
      obtain ⟨gap, slice, more, ahead, -, spelled, -, -, -, -, rfl⟩ := token?_eq_some_iff.mp read
      obtain ⟨secondGap, secondSlice, secondMore, secondAhead, blank, secondSpelled, suits, -⟩ :=
        token?_eq_some_iff.mp readSecond
      have rest : (cursor.skip gap.length).rest = slice ++ more := by rw [Cursor.skip_length ahead]
      -- What stands in front of the path is a blank or the end of the name, and no colon.
      have noColon : (((cursor.skip gap.length).skip slice.length).skip secondGap.length).last? ≠
          some ':' := by
        rw [Cursor.last?_skip secondAhead, Cursor.last?_skip rest]
        intro colon
        rcases Option.or_eq_some_iff.mp colon with inGap | ⟨-, colon⟩
        · exact absurd (blank _ (List.mem_of_getLast? inGap)) (by decide)
        rcases Option.or_eq_some_iff.mp colon with inName | ⟨none, -⟩
        · exact absurd (spelled.inIdentifier_of_isName isName _ (List.mem_of_getLast? inName))
            (by decide +kernel)
        · exact spelled.ne_nil (List.getLast?_eq_none_iff.mp none)
      obtain ⟨path, rfl, -, -⟩ := secondSpelled.slice_of_path isPath
      rw [Token.text_of_spells secondSpelled, isPath] at doubled
      have slashes : ('/' :: path)[1]? = some '/' := by
        cases path with
        | nil => simp [Lexeme.valueOf, Text.ofChars] at doubled
        | cons c path => simpa [Lexeme.valueOf, Text.ofChars] using doubled
      have isComment := (suits rfl slashes).mpr noColon
      rw [isPath] at isComment
      cases isComment

/-- The tokens of a text in front of its end are spelled, and stand apart. -/
theorem spelled_of_tokenize {text : List Char} {tokens : List Token} {finish : Token}
    (lexed : tokenize text = .ok (tokens ++ [finish])) :
    (∀ token ∈ tokens, token.Spelled) ∧ tokens.IsChain Token.Apart := by
  constructor
  · obtain ⟨others, place, same, -, last, tiles, -, -⟩ := exists_tiles_of_tokenize lexed
    obtain ⟨rfl, -⟩ := List.append_inj' same rfl
    exact fun token member => ⟨_, (tiles.spelled token member).2.2⟩
  · obtain ⟨others, last, run, -, same⟩ := exists_rounds_of_tokenize lexed
    obtain ⟨rfl, -⟩ := List.append_inj' same rfl
    exact Scan.isChain_apart run

end ApiDescription
