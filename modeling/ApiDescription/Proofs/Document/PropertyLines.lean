import ApiDescription.Proofs.Document.Joining
import ApiDescription.Proofs.Document.Types
import ApiDescription.Proofs.OrderedMap
import ApiDescription.Proofs.Token.Slices

/-!
# Property values without quotes

A value need not be quoted: it is what stands on its line behind the key, from the first token
to the last one. What that is, is said of the line alone. In a block of such lines every value
is read as its line has it, and a key that is written again has its last value.

A closing parenthesis is the boundary of this. It ends the block wherever it stands, also where
it closes a parenthesis of the value: such a value is cut off in front of it, and the lines
below are no part of the block.
-/

namespace ApiDescription

/-- A `key: value` line. -/
structure PropertyLine where
  key : Text
  value : List Char

namespace PropertyLine

/-- The characters of a line. -/
def text (line : PropertyLine) : List Char := line.key.chars ++ ':' :: ' ' :: line.value

/-- The tokens of the value when the line is read alone: those behind the key and the colon, up
to the end of the text. -/
def valueTokens (line : PropertyLine) : List Token :=
  match tokenize line.text with
  | .ok tokens => (tokens.drop 2).dropLast
  | .error _ => []

/-- A line whose key is a name and whose value stands on the line. It can be read alone, which
gives at least one token behind the colon, and no comments. -/
structure Readable (line : PropertyLine) : Prop where
  name : line.key.IsName
  inLine : '\n' ∉ line.value
  filled : line.valueTokens ≠ []
  noComment : ∀ token ∈ line.valueTokens, token.kind ≠ .comment

instance (line : PropertyLine) : Decidable line.Readable :=
  decidable_of_iff
    (line.key.IsName ∧ '\n' ∉ line.value ∧ line.valueTokens ≠ [] ∧
      ∀ token ∈ line.valueTokens, token.kind ≠ .comment)
    ⟨fun ⟨name, inLine, filled, noComment⟩ => ⟨name, inLine, filled, noComment⟩,
      fun ⟨name, inLine, filled, noComment⟩ => ⟨name, inLine, filled, noComment⟩⟩

/-- What tokens of the value stand for: the text they quote, if it is a single one, and otherwise
the characters from the first token to the last one. -/
def written (line : PropertyLine) : List Token → Text
  | [] => []
  | first :: rest =>
    if rest = [] ∧ first.kind = .quotedText then first.text
    else Text.ofChars (sliceOf line.text first.start.offset (rest.getLastD first).stop)

/-- The tokens of the value in front of the first closing parenthesis. -/
def openTokens (line : PropertyLine) : List Token :=
  line.valueTokens.takeWhile (·.kind ≠ .mark .rightParen)

/-- Whether the value holds a closing parenthesis outside quotes. -/
def closes (line : PropertyLine) : Bool := line.valueTokens.any (·.kind = .mark .rightParen)

/-- The characters of a block: the lines between parentheses that stand on lines of their own. -/
def blockText (lines : List PropertyLine) : List Char :=
  '(' :: (lines.flatMap (fun line => '\n' :: line.text) ++ ['\n', ')'])

/-- How many tokens lines take, with the line feeds in front of them. -/
def tokenCount : List PropertyLine → Nat
  | [] => 0
  | line :: lines => 3 + line.valueTokens.length + tokenCount lines

end PropertyLine

/-- A run in front of a round that reads nothing begins with the item a round reads. -/
theorem Rounds.exists_cons_of_round {ε σ α : Type} {round : EStateM ε σ (Option α)}
    {state next last : σ} {item : α} {items : List α} (run : Rounds round state items last)
    (read : round state = .ok (some item) next)
    (ended : ∀ other, round last ≠ .ok (some item) other) :
    ∃ later, items = item :: later ∧ Rounds round next later last := by
  cases run with
  | none _ => exact absurd read (ended next)
  | more first later =>
    rw [read] at first
    cases first
    exact ⟨_, rfl, later⟩

namespace Scan

/-- A mark is a token of its own. -/
theorem token?_mark {cursor : Cursor} {found : Mark} {more : List Char}
    (ahead : cursor.rest = found.char :: more) :
    ∃ token next, token.kind = .mark found ∧ next.rest = more ∧
      token? cursor = .ok (some token) next := by
  refine ⟨⟨.mark found, String.singleton found.char, cursor.location, cursor.location.offset + 1⟩,
    _, rfl, ?_, token?_eq_some_iff.mpr ⟨[], [found.char], more, ahead, by simp, .mark found,
      ?_, fun _ _ => rfl, rfl, rfl, rfl⟩⟩
  · simp [Cursor.skip, ahead]
  · intro slash
    cases found <;> simp [Mark.char] at slash

/-- A name in front of a colon is a token of its own. -/
theorem token?_name {cursor : Cursor} {name : Text} {more : List Char} (isName : name.IsName)
    (ahead : cursor.rest = name.chars ++ ':' :: more) :
    ∃ token next, token.isName = true ∧ token.text = name ∧ next.rest = ':' :: more ∧
      token? cursor = .ok (some token) next := by
  refine ⟨⟨wordKind (String.ofList name.chars), String.ofList name.chars, cursor.location,
    cursor.location.offset + name.chars.length⟩, _, ?_, ?_, ?_,
    token?_eq_some_iff.mpr ⟨[], name.chars, ':' :: more, ahead, by simp, isName.spelled, ?_, ?_,
      rfl, rfl, rfl⟩⟩
  · rcases Text.wordKind_cases (String.ofList name.chars) with kind | ⟨keyword, kind⟩ <;>
      simp [Token.isName, kind]
  · simp [Token.text, Text.ofString, Text.ofChars_chars isName.textual]
  · simp [Cursor.skip, ahead]
  · intro slash
    rw [← List.head?_eq_getElem?] at slash
    exact absurd slash isName.inIdentifier.1
  · intro next first
    cases first
    rw [Lexeme.continues_wordKind]
    decide +kernel

end Scan

namespace PropertyLine

variable {line : PropertyLine}

/-- A line that gives tokens can be read. -/
theorem Readable.exists_tokens (readable : line.Readable) :
    ∃ tokens, tokenize line.text = .ok tokens := by
  cases read : tokenize line.text with
  | ok tokens => exact ⟨tokens, rfl⟩
  | error fault => exact absurd (by rw [valueTokens, read]) readable.filled

/-- Read alone, a line gives its key, a colon and the tokens of its value, up to a gap. -/
theorem Readable.exists_rounds (readable : line.Readable) :
    ∃ key colon last, key.isName = true ∧ key.text = line.key ∧ colon.kind = .mark .colon ∧
      Rounds Scan.token? (Cursor.ofText line.text) (key :: colon :: line.valueTokens) last ∧
      ∀ c ∈ last.rest, Lexeme.isGap c = true := by
  obtain ⟨tokens, read⟩ := readable.exists_tokens
  obtain ⟨others, last, run, blank, rfl⟩ := exists_rounds_of_tokenize read
  have ended {item : Token} (next : Cursor) : Scan.token? last ≠ .ok (some item) next := by
    rw [Scan.token?_eq_none_iff.mpr ⟨blank, rfl⟩]
    exact nofun
  obtain ⟨key, behindKey, isName, named, atColon, readKey⟩ :=
    Scan.token?_name readable.name (show (Cursor.ofText line.text).rest = _ from rfl)
  obtain ⟨colon, behindColon, isColon, -, readColon⟩ :=
    Scan.token?_mark (show behindKey.rest = Mark.colon.char :: _ from atColon)
  obtain ⟨later, rfl, behind⟩ := run.exists_cons_of_round readKey ended
  obtain ⟨values, rfl, -⟩ := behind.exists_cons_of_round readColon ended
  have same : line.valueTokens = values := by
    rw [valueTokens, read]
    simp
  rw [same]
  exact ⟨key, colon, last, isName, named, isColon, run, blank⟩

/-- The tokens of a value are tokens inside the line, one behind the other, and none of them ends
a value but the closing parenthesis. -/
theorem Readable.valueTokens_tiles (readable : line.Readable) :
    (∀ token ∈ line.valueTokens, token.Inside line.text ∧
      Lexeme.Spells token.kind (token.slice line.text) token.value ∧
      token.kind ≠ .newline ∧ (token.endsValue = true → token.kind = .mark .rightParen)) ∧
    line.valueTokens.Pairwise fun earlier later => earlier.stop ≤ later.start.offset := by
  obtain ⟨key, colon, last, -, -, -, run, -⟩ := readable.exists_rounds
  have tiles := Tiles.of_rounds run (Cursor.placed_ofText line.text)
  have source : (Cursor.ofText line.text).text = line.text := by simp [Cursor.text, Cursor.ofText]
  rw [source] at tiles
  have inLine : '\n' ∉ line.text := by
    simp [text, readable.name.inLine, readable.inLine]
  refine ⟨fun token member => ?_, tiles.ordered.tail.tail⟩
  obtain ⟨filled, within, spelled⟩ := tiles.spelled token (by simp [member])
  have noFeed : token.kind ≠ .newline := by
    intro isFeed
    have feed : '\n' ∈ token.slice line.text := by simp [spelled.slice_of_newline isFeed]
    exact inLine (List.mem_of_mem_drop (List.mem_of_mem_take feed))
  refine ⟨⟨spelled.ne_endOfText, filled, within⟩, spelled, noFeed, fun ends => ?_⟩
  have noComment := readable.noComment token member
  have goesOn := spelled.ne_endOfText
  unfold Token.endsValue at ends
  split at ends
  · next kind => exact absurd kind noFeed
  · next kind => exact absurd kind noComment
  · next kind => exact kind
  · next kind => exact absurd kind goesOn
  · cases ends

/-- What the first tokens of a value stand for is what is written. -/
theorem Readable.valueOfTokens_eq (readable : line.Readable) {front : List Token}
    (leading : front <+: line.valueTokens) :
    valueOfTokens line.text front = line.written front := by
  cases front with
  | nil => rfl
  | cons first rest =>
    obtain ⟨tiled, ordered⟩ := readable.valueTokens_tiles
    have inside {token : Token} (member : token ∈ first :: rest) :=
      tiled token (leading.subset member)
    have ends {token : Token} (member : token ∈ first :: rest) :=
      (inside member).2.1.isBlank_ends (inside member).2.2.1
        (readable.noComment token (leading.subset member))
    have lastMember : rest.getLastD first ∈ first :: rest := List.getLastD_mem_cons
    have forward : first.stop ≤ (rest.getLastD first).stop := by
      rcases List.mem_cons.mp lastMember with same | member
      · rw [same]
      · have apart := List.rel_of_pairwise_cons (ordered.sublist leading.sublist) member
        have filled := (inside lastMember).1.2.1
        omega
    have trimmed := trimChars_sliceOf (inside List.mem_cons_self).1.2.1 (inside lastMember).1.2.1
      forward (inside lastMember).1.2.2 (ends List.mem_cons_self).1 (ends lastMember).2
    have goesOn : line.text ≠ [] := by simp [text]
    simp only [valueOfTokens, written, trimmed]
    simp [goesOn]

/-- What the first tokens of a value stand for does not depend on what is around the line. -/
theorem Readable.valueOfTokens_within (readable : line.Readable) {front : List Token}
    (leading : front <+: line.valueTokens) (before more : List Char) :
    valueOfTokens (before ++ (line.text ++ '\n' :: more))
      (front.map (Displacement.below before).token) = line.written front := by
  rw [valueOfTokens_append_right rfl (by simp), valueOfTokens_append_left,
    readable.valueOfTokens_eq leading]
  exact fun token member => (readable.valueTokens_tiles.1 token (leading.subset member)).1

/-- The tokens that lines stand for in a source, with the line feeds in front of them: those of
each line alone, displaced. -/
inductive TokensOf (source : List Char) : List PropertyLine → List Token → Prop
  | none : TokensOf source [] []
  | more {line : PropertyLine} {lines : List PropertyLine} {feed key colon : Token}
      {later : List Token} {before more : List Char} (isFeed : feed.kind = .newline)
      (isName : key.isName = true) (named : key.text = line.key)
      (isColon : colon.kind = .mark .colon)
      (within : source = before ++ (line.text ++ '\n' :: more))
      (rest : TokensOf source lines later) :
      TokensOf source (line :: lines)
        (feed :: key :: colon :: (line.valueTokens.map (Displacement.below before).token ++ later))

/-- Behind the end of a line, the scanner reads the line below it. -/
theorem Readable.exists_rounds_within (readable : line.Readable) {cursor : Cursor}
    {gap more : List Char} (placed : cursor.Placed) (blank : ∀ c ∈ gap, Lexeme.isGap c = true)
    (ahead : cursor.rest = gap ++ '\n' :: (line.text ++ '\n' :: more)) :
    ∃ feed key colon before next gap', feed.kind = .newline ∧ key.isName = true ∧
      key.text = line.key ∧ colon.kind = .mark .colon ∧
      cursor.text = before ++ (line.text ++ '\n' :: more) ∧
      Rounds Scan.token? cursor
        (feed :: key :: colon :: line.valueTokens.map (Displacement.below before).token) next ∧
      next.rest = gap' ++ '\n' :: more ∧ ∀ c ∈ gap', Lexeme.isGap c = true := by
  obtain ⟨key, colon, last, isName, named, isColon, run, lastBlank⟩ := readable.exists_rounds
  obtain ⟨feed, start, isFeed, atLine, readFeed⟩ := Scan.token?_lineFeed ahead blank
  obtain ⟨startPlaced, sameText⟩ := Scan.placed_of_rounds (.single readFeed) placed
  have text : start.before.reverse ++ (line.text ++ '\n' :: more) = cursor.text := by
    rw [← atLine, ← sameText, Cursor.text]
  have starts : start.last? = some '\n' := by
    have whole : start.before.reverse = cursor.before.reverse ++ (gap ++ ['\n']) := by
      apply Cursor.before_eq
      rw [sameText, Cursor.text, ahead, atLine]
      simp
    rw [Cursor.last?_eq, whole]
    simp
  have displaced := startPlaced.displaced_lineStart (by simp [starts])
  rw [atLine] at displaced
  obtain ⟨next, nextMoved, later⟩ :=
    Scan.rounds_moved displaced.moved (Scan.rounds_followedBy run more)
  exact ⟨feed, (Displacement.below start.before.reverse).token key,
    (Displacement.below start.before.reverse).token colon, start.before.reverse, next, last.rest,
    isFeed, isName, named, isColon, text.symm, .more readFeed later, nextMoved.rest, lastBlank⟩

/-- Behind the end of a line, the scanner reads the lines below it. -/
theorem exists_rounds_lines {lines : List PropertyLine} (readable : ∀ line ∈ lines, line.Readable)
    {cursor : Cursor} {gap more : List Char} (placed : cursor.Placed)
    (blank : ∀ c ∈ gap, Lexeme.isGap c = true)
    (ahead : cursor.rest = gap ++ (lines.flatMap (fun line => '\n' :: line.text) ++ '\n' :: more)) :
    ∃ tokens next gap', TokensOf cursor.text lines tokens ∧
      Rounds Scan.token? cursor tokens next ∧ next.rest = gap' ++ '\n' :: more ∧
      ∀ c ∈ gap', Lexeme.isGap c = true := by
  induction lines generalizing cursor gap with
  | nil => exact ⟨[], cursor, gap, .none, .none cursor, ahead, blank⟩
  | cons line lines inductionHypothesis =>
    obtain ⟨below, goesOn⟩ : ∃ below,
        lines.flatMap (fun line => '\n' :: line.text) ++ '\n' :: more = '\n' :: below := by
      cases lines <;> exact ⟨_, rfl⟩
    rw [List.flatMap_cons, List.append_assoc, goesOn] at ahead
    obtain ⟨feed, key, colon, before, middle, gap', isFeed, isName, named, isColon, within, run,
      behind, blank'⟩ := (readable line List.mem_cons_self).exists_rounds_within placed blank ahead
    obtain ⟨middlePlaced, sameText⟩ := Scan.placed_of_rounds run placed
    rw [← goesOn] at behind
    obtain ⟨tokens, next, lastGap, tokensOf, later, atEnd, lastBlank⟩ := inductionHypothesis
      (fun line member => readable line (List.mem_cons_of_mem _ member)) middlePlaced blank' behind
    rw [sameText] at tokensOf
    exact ⟨_, next, lastGap, .more isFeed isName named isColon within tokensOf, run.append later,
      atEnd, lastBlank⟩

end PropertyLine

namespace Rule

variable {source : List Char} {feed key colon stop : Token} {values later : List Token}
  {finish : Token} {position : Nat}

/-- Spacing is skipped up to what is no spacing. -/
theorem skipSpacing_append {spacing : List Token}
    (spaces : ∀ token ∈ spacing, token.isSpacing = true)
    (stops : ∀ token ∈ later.head?, token.isSpacing = false) :
    skipSpacing ⟨spacing ++ later, finish, position⟩ =
      .ok () ⟨later, finish, position + spacing.length⟩ := by
  rw [skipSpacing_eq, bind_apply, Rule.spacing]
  simp [Lexeme.takeWhile_append_of_stops spaces stops, Stream.skip, pure_apply]

/-- A value ends in front of the first token that ends values. -/
theorem propertyValue_append (inValue : ∀ token ∈ values, token.endsValue = false)
    (stops : stop.endsValue = true) :
    propertyValue source ⟨values ++ stop :: later, finish, position⟩ =
      .ok (valueOfTokens source values) ⟨stop :: later, finish, position + values.length⟩ := by
  have run : (values ++ stop :: later).takeWhile (fun token => !token.endsValue) = values := by
    rw [List.takeWhile_append_of_pos (by simpa using inValue),
      List.takeWhile_cons_of_neg (by simp [stops]), List.append_nil]
  rw [propertyValue]
  simp [run, Stream.skip]

/-- A property takes the line feed in front of it, its key, the colon, and what stands in front of
the first token that ends values. -/
theorem property?_line (isFeed : feed.kind = .newline) (isName : key.isName = true)
    (isColon : colon.kind = .mark .colon) (inValue : ∀ token ∈ values, token.endsValue = false)
    (stops : stop.endsValue = true) :
    property? source ⟨feed :: key :: colon :: (values ++ stop :: later), finish, position⟩ =
      .ok (some (key.text, valueOfTokens source values))
        ⟨stop :: later, finish, position + (3 + values.length)⟩ := by
  have apart : key.isSpacing = false ∧ key.kind ≠ .mark .rightParen ∧ key.kind ≠ .endOfText := by
    unfold Token.isName at isName
    split at isName <;> simp_all [Token.isSpacing]
  have spaces : ∀ token ∈ [feed], token.isSpacing = true := by simp [Token.isSpacing, isFeed]
  have skipped : skipSpacing ⟨feed :: key :: colon :: (values ++ stop :: later), finish, position⟩ =
      .ok () ⟨key :: colon :: (values ++ stop :: later), finish, position + 1⟩ :=
    skipSpacing_append spaces (by simpa using apart.1)
  rw [property?_eq, untilClosed_apply skipped, Stream.current_of_cons rfl, if_neg apart.2.1,
    if_neg apart.2.2, property]
  simp only [bind_apply, expectName_apply, expect_apply, Stream.current, Stream.next,
    List.headD_cons, isName, isColon, if_true, pure_apply, propertyValue_append inValue stops]
  simp [Nat.add_assoc]

/-- Spacing in front of a closing parenthesis is skipped, and the properties end with it. -/
theorem property?_closing {spacing : List Token}
    (spaces : ∀ token ∈ spacing, token.isSpacing = true) (closes : stop.kind = .mark .rightParen) :
    property? source ⟨spacing ++ stop :: later, finish, position⟩ =
      .ok none ⟨later, finish, position + spacing.length + 1⟩ := by
  have skipped : skipSpacing ⟨spacing ++ stop :: later, finish, position⟩ =
      .ok () ⟨stop :: later, finish, position + spacing.length⟩ :=
    skipSpacing_append spaces (by simp [Token.isSpacing, closes])
  rw [property?_eq, untilClosed_apply skipped, Stream.current_of_cons rfl, if_pos closes]
  rfl

/-- What the properties behind an opening parenthesis leave. -/
theorem propertyBlock_of_rounds {opening : Token} {tokens : List Token}
    {entries : List (Text × Text)} {last next : Stream}
    (opens : opening.kind = .mark .leftParen) (ends : finish.kind = .endOfText)
    (run : Rounds (property? source) ⟨tokens, finish, 1⟩ entries last)
    (closed : property? source last = .ok none next) :
    propertyBlock source ⟨opening :: tokens, finish, 0⟩ = .ok (.ofList entries) next := by
  have ended : Stream.Ended ⟨tokens, finish, 1⟩ := ends
  have all : many (property? source) ⟨tokens, finish, 1⟩ = .ok entries next :=
    (many_eq_ok_iff (shrinks_property? source) ended).mpr ⟨last, run, closed⟩
  simp only [propertyBlock, bind_apply, expect_apply, Stream.current, Stream.next, List.headD_cons,
    opens, if_true, all, pure_apply]

end Rule

namespace PropertyLine

variable {source : List Char}

/-- A key with its value as it is read. -/
def entry (line : PropertyLine) : Text × Text := (line.key, line.written line.openTokens)

/-- Lines above others have the tokens in front of theirs. -/
theorem TokensOf.exists_of_append {above below : List PropertyLine} {tokens : List Token}
    (tokensOf : TokensOf source (above ++ below) tokens) :
    ∃ front back, tokens = front ++ back ∧ TokensOf source above front ∧
      TokensOf source below back := by
  induction above generalizing tokens with
  | nil => exact ⟨[], tokens, rfl, .none, tokensOf⟩
  | cons line above inductionHypothesis =>
    cases tokensOf with
    | more isFeed isName named isColon within rest =>
      obtain ⟨front, back, rfl, aboveTokens, belowTokens⟩ := inductionHypothesis rest
      exact ⟨_, back, by simp, .more isFeed isName named isColon within aboveTokens, belowTokens⟩

/-- Every line has its line feed, its key, its colon and the tokens of its value. -/
theorem TokensOf.length_eq {lines : List PropertyLine} {tokens : List Token}
    (tokensOf : TokensOf source lines tokens) : tokens.length = tokenCount lines := by
  induction tokensOf with
  | none => rfl
  | more _ _ _ _ _ _ inductionHypothesis =>
    simp only [List.length_cons, List.length_append, List.length_map, inductionHypothesis,
      tokenCount]
    omega

/-- A line that does not close the block is read to its end. -/
theorem openTokens_eq {line : PropertyLine} (goesOn : line.closes = false) :
    line.openTokens = line.valueTokens := by
  rw [openTokens, List.takeWhile_eq_self_iff]
  simpa [closes] using goesOn

/-- A line that closes the block is read up to a closing parenthesis. -/
theorem exists_openTokens_append {line : PropertyLine} (closes : line.closes = true) :
    ∃ closing rest, line.valueTokens = line.openTokens ++ closing :: rest ∧
      closing.kind = .mark .rightParen := by
  rw [PropertyLine.closes, List.any_eq_true] at closes
  obtain ⟨closing, found⟩ := Option.isSome_iff_exists.mp (List.find?_isSome.mpr closes)
  obtain ⟨isClosing, front, rest, split, before⟩ := List.find?_eq_some_iff_append.mp found
  have isOpen : line.openTokens = front := by
    rw [openTokens, split, List.takeWhile_append_of_pos (by simpa using before),
      List.takeWhile_cons_of_neg (by simpa using isClosing), List.append_nil]
  exact ⟨closing, rest, by rw [isOpen, split], by simpa using isClosing⟩

/-- The property of a line, up to the first token that ends its value. -/
theorem Readable.property?_within {line : PropertyLine} (readable : line.Readable)
    {feed key colon stop : Token} {before more : List Char} (isFeed : feed.kind = .newline)
    (isName : key.isName = true) (named : key.text = line.key) (isColon : colon.kind = .mark .colon)
    (within : source = before ++ (line.text ++ '\n' :: more)) (stops : stop.endsValue = true)
    (later : List Token) (finish : Token) (position : Nat) :
    Rule.property? source ⟨feed :: key :: colon ::
        (line.openTokens.map (Displacement.below before).token ++ stop :: later), finish, position⟩ =
      .ok (some line.entry) ⟨stop :: later, finish, position + (3 + line.openTokens.length)⟩ := by
  have leading : line.openTokens <+: line.valueTokens := List.takeWhile_prefix _
  have inValue : ∀ token ∈ line.openTokens.map (Displacement.below before).token,
      token.endsValue = false := by
    simp only [List.forall_mem_map]
    intro token member
    have apart : token.kind ≠ .mark .rightParen := by simpa using List.mem_takeWhile_imp member
    exact Bool.eq_false_iff.mpr fun ends =>
      apart ((readable.valueTokens_tiles.1 token (leading.subset member)).2.2.2 ends)
  rw [Rule.property?_line isFeed isName isColon inValue stops, List.length_map, within,
    readable.valueOfTokens_within leading, named, entry]

/-- The properties of lines are read up to the end of the last line, if none of them closes the
block. -/
theorem TokensOf.rounds {lines : List PropertyLine} {tokens : List Token}
    (tokensOf : TokensOf source lines tokens) (readable : ∀ line ∈ lines, line.Readable)
    (goesOn : ∀ line ∈ lines, line.closes = false) {stop : Token} (stops : stop.endsValue = true)
    (later : List Token) (finish : Token) (position : Nat) :
    Rounds (Rule.property? source) ⟨tokens ++ stop :: later, finish, position⟩ (lines.map entry)
      ⟨stop :: later, finish, position + tokenCount lines⟩ := by
  induction tokensOf generalizing position with
  | none => exact .none _
  | @more line lines feed key colon tokens before more isFeed isName named isColon within rest
      inductionHypothesis =>
    obtain ⟨lineReadable, readable⟩ := List.forall_mem_cons.mp readable
    obtain ⟨lineGoesOn, goesOn⟩ := List.forall_mem_cons.mp goesOn
    obtain ⟨next, behind, ahead, nextStops⟩ : ∃ next behind,
        tokens ++ stop :: later = next :: behind ∧ next.endsValue = true := by
      cases rest with
      | none => exact ⟨stop, later, rfl, stops⟩
      | more isFeed _ _ _ _ _ => exact ⟨_, _, rfl, by simp [Token.endsValue, isFeed]⟩
    have first := lineReadable.property?_within isFeed isName named isColon within nextStops behind
      finish position
    have below := inductionHypothesis readable goesOn (position + (3 + line.openTokens.length))
    rw [← ahead, openTokens_eq lineGoesOn] at first
    rw [openTokens_eq lineGoesOn] at below
    simpa [tokenCount, Nat.add_assoc] using Rounds.more first below

/-- The tokens of a block: the opening parenthesis, those of its lines, a line feed and the closing
parenthesis. -/
theorem exists_tokens_block {lines : List PropertyLine}
    (readable : ∀ line ∈ lines, line.Readable) :
    ∃ opening tokens feed closing finish,
      tokenize (blockText lines) = .ok (opening :: (tokens ++ [feed, closing]) ++ [finish]) ∧
      opening.kind = .mark .leftParen ∧ TokensOf (blockText lines) lines tokens ∧
      feed.kind = .newline ∧ closing.kind = .mark .rightParen ∧ finish.kind = .endOfText := by
  obtain ⟨opening, start, opens, ahead, readOpening⟩ := Scan.token?_mark <|
    show (Cursor.ofText (blockText lines)).rest = Mark.leftParen.char :: _ from rfl
  obtain ⟨placed, sameText⟩ :=
    Scan.placed_of_rounds (.single readOpening) (Cursor.placed_ofText _)
  have source : (Cursor.ofText (blockText lines)).text = blockText lines := by
    simp [Cursor.text, Cursor.ofText]
  obtain ⟨tokens, behind, gap, tokensOf, run, atFeed, blank⟩ := exists_rounds_lines readable placed
    (show ∀ c ∈ [], Lexeme.isGap c = true by simp) ahead
  rw [sameText, source] at tokensOf
  obtain ⟨feed, atClosing, isFeed, closingAhead, readFeed⟩ := Scan.token?_lineFeed atFeed blank
  obtain ⟨closing, last, isClosing, lastAhead, readClosing⟩ :=
    Scan.token?_mark (show atClosing.rest = Mark.rightParen.char :: [] from closingAhead)
  have whole := Rounds.more readOpening (run.append (.more readFeed (.single readClosing)))
  have ended : Scan.token? last = roundEnd none (last.skip last.rest.length) :=
    Scan.token?_eq_none_iff.mpr ⟨by simp [lastAhead], rfl⟩
  exact ⟨opening, tokens, feed, closing, _, tokenize_of_rounds whole ended, opens, tokensOf, isFeed,
    isClosing, rfl⟩

section Block

variable {lines : List PropertyLine} {tokens : List Token} {opening feed closing finish : Token}

/-- A block in which no value has a closing parenthesis is read to its end. -/
theorem TokensOf.propertyBlock (tokensOf : TokensOf source lines tokens)
    (readable : ∀ line ∈ lines, line.Readable) (goesOn : ∀ line ∈ lines, line.closes = false)
    (opens : opening.kind = .mark .leftParen) (isFeed : feed.kind = .newline)
    (isClosing : closing.kind = .mark .rightParen) (ends : finish.kind = .endOfText) :
    Rule.propertyBlock source ⟨opening :: (tokens ++ [feed, closing]), finish, 0⟩ =
      .ok (.ofList (lines.map fun line => (line.key, line.written line.valueTokens)))
        ⟨[], finish, (opening :: (tokens ++ [feed, closing])).length⟩ := by
  have stops : feed.endsValue = true := by simp [Token.endsValue, isFeed]
  have spaces : ∀ token ∈ [feed], token.isSpacing = true := by simp [Token.isSpacing, isFeed]
  have run := tokensOf.rounds readable goesOn stops [closing] finish 1
  have entries :
      lines.map entry = lines.map fun line => (line.key, line.written line.valueTokens) :=
    List.map_congr_left fun line member => by rw [entry, openTokens_eq (goesOn line member)]
  rw [Rule.propertyBlock_of_rounds opens ends run (Rule.property?_closing spaces isClosing),
    entries, ← tokensOf.length_eq]
  simp only [List.length_cons, List.length_append, List.length_nil]
  congr 2
  omega

/-- The first line with a closing parenthesis in its value is the last line of the block. -/
theorem TokensOf.propertyBlock_closed {above below : List PropertyLine} {line : PropertyLine}
    (tokensOf : TokensOf source (above ++ line :: below) tokens)
    (readable : ∀ other ∈ above ++ line :: below, other.Readable)
    (goesOn : ∀ line ∈ above, line.closes = false) (closes : line.closes = true)
    (opens : opening.kind = .mark .leftParen) (ends : finish.kind = .endOfText)
    (more : List Token) :
    ∃ next, Rule.propertyBlock source ⟨opening :: (tokens ++ more), finish, 0⟩ =
      .ok (.ofList ((above ++ [line]).map entry)) next ∧
      next.position = 1 + tokenCount above + (3 + line.openTokens.length) + 1 := by
  obtain ⟨front, back, rfl, aboveTokens, lineTokens⟩ := tokensOf.exists_of_append
  cases lineTokens with
  | @more _ _ feed key colon later before behind isFeed isName named isColon within _ =>
    obtain ⟨closing, rest, split, isClosing⟩ := exists_openTokens_append closes
    have feedStops : feed.endsValue = true := by simp [Token.endsValue, isFeed]
    have closingStops : ((Displacement.below before).token closing).endsValue = true := by
      simp [Token.endsValue, Displacement.token, isClosing]
    have noSpacing : ∀ token ∈ ([] : List Token), token.isSpacing = true := by simp
    have aboveRun := aboveTokens.rounds (fun other member => readable other (by simp [member]))
      goesOn feedStops (key :: colon :: (line.openTokens.map (Displacement.below before).token ++
        (Displacement.below before).token closing ::
          (rest.map (Displacement.below before).token ++ (later ++ more)))) finish 1
    have lastRead := (readable line (by simp)).property?_within isFeed isName named isColon within
      closingStops (rest.map (Displacement.below before).token ++ (later ++ more)) finish
      (1 + tokenCount above)
    have block := Rule.propertyBlock_of_rounds opens ends (aboveRun.append (.single lastRead))
      (Rule.property?_closing noSpacing isClosing)
    simp only [split, List.map_append, List.map_cons, List.append_assoc, List.cons_append]
    exact ⟨_, block, rfl⟩

end Block

/-- A block of readable lines is read, and every key has the value its last line has for it: the
characters from the first token to the last one, or the text they quote if it is one quoted text.
This holds as long as no value has a closing parenthesis. The first one ends the block, with its
value cut off in front of it, and nothing below it is read. -/
theorem propertyBlock_lines {lines : List PropertyLine} (readable : ∀ line ∈ lines, line.Readable) :
    ∃ tokens finish, tokenize (blockText lines) = .ok (tokens ++ [finish]) ∧
      ((∀ line ∈ lines, line.closes = false) → ∃ properties,
        Rule.propertyBlock (blockText lines) (.ofTokens (tokens ++ [finish])) =
          .ok properties ⟨[], finish, tokens.length⟩ ∧
        properties.LastWins (lines.map fun line => (line.key, line.written line.valueTokens))) ∧
      ∀ above line below, lines = above ++ line :: below →
        (∀ line ∈ above, line.closes = false) → line.closes = true → ∃ properties next,
        Rule.propertyBlock (blockText lines) (.ofTokens (tokens ++ [finish])) =
          .ok properties next ∧
        properties.LastWins ((above ++ [line]).map fun line =>
          (line.key, line.written line.openTokens)) ∧
        next.position = 1 + tokenCount above + (3 + line.openTokens.length) + 1 := by
  obtain ⟨opening, tokens, feed, closing, finish, read, opens, tokensOf, isFeed, isClosing, ends⟩ :=
    exists_tokens_block readable
  obtain ⟨others, last, same, -, known⟩ := exists_stream_of_tokenize read
  obtain ⟨rfl, -⟩ := List.append_inj' same rfl
  have stream := Stream.ofTokens_append (fun token member => (known token member).1.1) ends
  refine ⟨_, finish, read, fun goesOn => ?_, fun above line below split goesOn closes => ?_⟩
  · rw [stream]
    exact ⟨_, tokensOf.propertyBlock readable goesOn opens isFeed isClosing ends,
      OrderedMap.lastWins_ofList _⟩
  · rw [stream]
    rw [split] at tokensOf readable ⊢
    obtain ⟨next, block, position⟩ :=
      tokensOf.propertyBlock_closed readable goesOn closes opens ends [feed, closing]
    exact ⟨_, next, block, OrderedMap.lastWins_ofList _, position⟩

/-- A key that is written twice has the last value, a single quoted text is decoded, and a closing
parenthesis inside quotes closes nothing. -/
theorem propertyBlock_lines_twice :
    let lines : List PropertyLine :=
      [⟨"k", "a, [2]".toList⟩, ⟨"type", "\"x\\ty\"".toList⟩, ⟨"k", " http://h/v1 \")\" ".toList⟩]
    ∃ tokens finish, tokenize (blockText lines) = .ok (tokens ++ [finish]) ∧ ∃ properties,
      Rule.propertyBlock (blockText lines) (.ofTokens (tokens ++ [finish])) =
        .ok properties ⟨[], finish, tokens.length⟩ ∧
      properties.entries.map Prod.fst = [Text.ofString "k", Text.ofString "type"] ∧
      properties.get? "k" = some (Text.ofString "http://h/v1 \")\"") ∧
      properties.get? "type" = some (Text.ofString "x\ty") := by
  intro lines
  have readable : ∀ line ∈ lines, line.Readable := by decide +kernel
  have goesOn : ∀ line ∈ lines, line.closes = false := by decide +kernel
  obtain ⟨tokens, finish, read, whole, -⟩ := propertyBlock_lines readable
  obtain ⟨properties, block, keys, values⟩ := whole goesOn
  exact ⟨tokens, finish, read, properties, block, keys.trans (by decide +kernel),
    (values _).trans (by decide +kernel), (values _).trans (by decide +kernel)⟩

/-- Whether parentheses are closed as often as they are opened, and never before, where `depth` of
them are open. -/
def balanced : (depth : Nat) → List Token → Bool
  | depth, [] => depth = 0
  | depth, token :: rest =>
    if token.kind = .mark .leftParen then balanced (depth + 1) rest
    else if token.kind = .mark .rightParen then depth ≠ 0 && balanced (depth - 1) rest
    else balanced depth rest

/-- Not every value with balanced parentheses is read to the end of its line. -/
theorem not_forall_propertyBlock_lines :
    ¬∀ lines : List PropertyLine,
      (∀ line ∈ lines, line.Readable ∧ balanced 0 line.valueTokens = true) →
      ∃ tokens, tokenize (blockText lines) = .ok tokens ∧ ∃ properties next,
        Rule.propertyBlock (blockText lines) (.ofTokens tokens) = .ok properties next ∧
        properties.LastWins (lines.map fun line => (line.key, line.written line.valueTokens)) := by
  intro claim
  let lines : List PropertyLine := [⟨"k", "f(x)".toList⟩]
  obtain ⟨tokens, read, properties, next, block, wins⟩ := claim lines (by decide +kernel)
  have cut : (tokenize (blockText lines)).map (fun tokens =>
      match Rule.propertyBlock (blockText lines) (.ofTokens tokens) with
      | .ok properties _ => properties.get? "k"
      | .error _ _ => none) = .ok (some (Text.ofString "f(x")) := by decide +kernel
  have whole : properties.get? "k" = some (Text.ofString "f(x)") :=
    (wins.values _).trans (by decide +kernel)
  rw [read] at cut
  simp only [Except.map, block, whole] at cut
  exact absurd cut (by decide)

end PropertyLine

end ApiDescription
