import ApiDescription.Proofs.Token.Lexing
import Mathlib.Data.List.TakeWhile

/-!
# The lexical grammar

`Spells` says which characters make up a token of each kind and what value they
have, without reading anything. The scanner reads exactly these lexemes, each as
long as the characters behind it allow: `read_eq_ok_iff`. That two slashes begin
a comment unless a colon stands before them is the only thing a lexeme owes to
what precedes it.
-/

namespace ApiDescription.Lexeme

/-- Characters between quotes and what they stand for: quotes are escaped, line feeds may
be, and a backslash never stands last. -/
inductive QuotedAs : List Char → List Char → Prop
  | nil : QuotedAs [] []
  | plain {c : Char} {body value : List Char} (quote : c ≠ '"') (backslash : c ≠ '\\')
      (feed : c ≠ '\n') (rest : QuotedAs body value) : QuotedAs (c :: body) (c :: value)
  | escaped {c : Char} {body value : List Char} (rest : QuotedAs body value) :
      QuotedAs ('\\' :: c :: body) (unescape c ++ value)

/-- The characters of a token of some kind, and its value. -/
inductive Spells : Kind → List Char → String → Prop
  | newline : Spells .newline ['\n'] "\\n"
  | lineComment {body : List Char} (within : '\n' ∉ body) :
      Spells .comment ('/' :: '/' :: body)
        (String.ofList (Text.dropEndWhile (· = '\r') ('/' :: '/' :: body)))
  | blockComment {body : List Char} (closed : commentEnd? body = some body.length) :
      Spells .comment ('/' :: '*' :: body) (String.ofList ('/' :: '*' :: body))
  | path {rest : List Char} (inside : ∀ c ∈ rest, inPath c = true)
      (noComment : rest.head? ≠ some '*') :
      Spells .path ('/' :: rest) (String.ofList ('/' :: rest))
  | quotedText {body value : List Char} (quoted : QuotedAs body value) :
      Spells .quotedText ('"' :: body ++ ['"']) (String.ofList value)
  | rawText {body : List Char} (inside : '\x60' ∉ body) :
      Spells .rawText ('\x60' :: body ++ ['\x60']) (String.ofList ('\x60' :: body ++ ['\x60']))
  | number {c : Char} {rest : List Char} (digit : Text.isDigit c = true)
      (inside : ∀ d ∈ rest, inNumber d = true) :
      Spells .number (c :: rest) (String.ofList (c :: rest))
  | word {c : Char} {rest : List Char} (begins : beginsIdentifier c = true)
      (noNumber : Text.isDigit c = false) (inside : ∀ d ∈ rest, inIdentifier d = true) :
      Spells (Scan.wordKind (String.ofList (c :: rest))) (c :: rest)
        (String.ofList (c :: rest))
  | marker (found : Marker) : Spells (.marker found) found.spelling.toList found.spelling
  | mark (found : Mark) : Spells (.mark found) [found.char] (String.singleton found.char)

/-- Whether a character right behind a lexeme would have been read as a part of it. -/
def continues (kind : Kind) (slice : List Char) (next : Char) : Bool :=
  match kind with
  | .identifier | .keyword _ | .marker _ => inIdentifier next
  | .number => inNumber next
  | .path => inPath next
  | .comment => slice[1]? == some '/' && next != '\n'
  | _ => false

/-- Whether a lexeme goes with the character before it: two slashes are a comment,
or a path behind a colon. -/
def Suits (last? : Option Char) (kind : Kind) (slice : List Char) : Prop :=
  slice[0]? = some '/' → slice[1]? = some '/' → (kind = .comment ↔ last? ≠ some ':')

/-- No lexeme is empty. -/
theorem Spells.ne_nil {kind : Kind} {slice : List Char} {value : String}
    (spelled : Spells kind slice value) : slice ≠ [] := by
  cases spelled with
  | marker found => cases found <;> decide
  | _ => simp

/-- The token of a line feed is a line feed. -/
theorem Spells.slice_of_newline {kind : Kind} {slice : List Char} {value : String}
    (spelled : Spells kind slice value) (isFeed : kind = .newline) : slice = ['\n'] := by
  cases spelled with
  | newline => rfl
  | @word c rest _ _ _ =>
    unfold Scan.wordKind at isFeed
    split at isFeed <;> cases isFeed
  | _ => simp at isFeed

/-- Quoted characters are read up to the quote that closes them. -/
theorem QuotedAs.quotedBody_append {body value : List Char} (quoted : QuotedAs body value)
    (rest : List Char) :
    quotedBody (body ++ '"' :: rest) = (value, body.length, '"' :: rest) := by
  induction quoted with
  | nil => simp [quotedBody]
  | @plain c body value quote backslash feed _ inductionHypothesis =>
    have goesOn : ¬(c = '"' ∨ c = '\n') := by simp [quote, feed]
    cases body <;> simp_all [quotedBody]
  | escaped _ inductionHypothesis => simp [quotedBody, inductionHypothesis]

/-- Whatever is read up to a closing quote is quoted. -/
theorem quotedAs_of_quotedBody {text value left : List Char} {count : Nat}
    (read : quotedBody text = (value, count, left)) (closed : left.head? = some '"') :
    ∃ body rest, text = body ++ '"' :: rest ∧ body.length = count ∧ QuotedAs body value := by
  fun_induction quotedBody text generalizing value count left with
  | case1 | case2 =>
    cases read
    exact nomatch closed
  | case3 c rest inner innerCount innerLeft later inductionHypothesis =>
    cases read
    obtain ⟨body, after, rfl, rfl, quoted⟩ := inductionHypothesis later closed
    exact ⟨'\\' :: c :: body, after, rfl, rfl, .escaped quoted⟩
  | case4 c rest _ _ ends =>
    cases read
    have quote : c = '"' := by simpa using closed
    exact ⟨[], rest, by simp [quote], rfl, .nil⟩
  | case5 c rest lone escape goesOn inner innerCount innerLeft later inductionHypothesis =>
    cases read
    obtain ⟨body, after, rfl, rfl, quoted⟩ := inductionHypothesis later closed
    rw [not_or] at goesOn
    have backslash : c ≠ '\\' := by
      rintro rfl
      cases body <;> simp_all
    exact ⟨c :: body, after, rfl, rfl, .plain goesOn.1 backslash goesOn.2 quoted⟩

/-- The leading elements of a class, when those behind them stop there. -/
theorem takeWhile_append_of_stops {α : Type} {p : α → Bool} {slice more : List α}
    (inside : ∀ c ∈ slice, p c = true) (stops : ∀ next ∈ more.head?, p next = false) :
    (slice ++ more).takeWhile p = slice := by
  rw [List.takeWhile_append_of_pos inside]
  cases more with
  | nil => simp
  | cons next rest => simp [stops next rfl]

/-- A text splits behind its leading characters of a class, and the class ends there. -/
theorem exists_takeWhile_append (p : Char → Bool) (text : List Char) :
    ∃ more, text = text.takeWhile p ++ more ∧ (∀ c ∈ text.takeWhile p, p c = true) ∧
      ∀ next ∈ more.head?, p next = false := by
  refine ⟨text.dropWhile p, List.takeWhile_append_dropWhile.symm, ?_, ?_⟩
  · exact fun c member => List.mem_takeWhile_imp member
  · intro next first
    have found := List.head?_dropWhile_not p text
    rw [Option.mem_def.mp first] at found
    simpa using found

/-- A comment that is closed stays closed at the same place whatever follows it. -/
theorem commentEnd?_append {text : List Char} {count : Nat} (closed : commentEnd? text = some count)
    (more : List Char) : commentEnd? (text ++ more) = some count := by
  fun_induction commentEnd? text generalizing count with
  | case1 rest => simpa [commentEnd?] using closed
  | case2 => exact nomatch closed
  | case3 c rest noEnd inductionHypothesis =>
    obtain ⟨inner, read, rfl⟩ := Option.map_eq_some_iff.mp closed
    have noEnd : ∀ after, c = '*' → rest ++ more ≠ '/' :: after := by
      rintro after rfl starts
      cases rest with
      | nil => exact nomatch read
      | cons d rest =>
        cases starts
        exact noEnd rest rfl rfl
    rw [List.cons_append, commentEnd?.eq_3 c _ noEnd, inductionHypothesis read]
    rfl

/-- A text in which a comment is closed splits behind the closing mark. -/
theorem exists_comment {text : List Char} {count : Nat} (closed : commentEnd? text = some count) :
    ∃ body more, text = body ++ more ∧ body.length = count ∧
      commentEnd? body = some body.length := by
  fun_induction commentEnd? text generalizing count with
  | case1 rest =>
    cases closed
    exact ⟨['*', '/'], rest, rfl, rfl, rfl⟩
  | case2 => exact nomatch closed
  | case3 c rest noEnd inductionHypothesis =>
    obtain ⟨inner, read, rfl⟩ := Option.map_eq_some_iff.mp closed
    obtain ⟨body, more, rfl, rfl, within⟩ := inductionHypothesis read
    have noEnd : ∀ after, c = '*' → body ≠ '/' :: after := by
      rintro after rfl rfl
      exact noEnd _ rfl rfl
    refine ⟨c :: body, more, rfl, rfl, ?_⟩
    rw [commentEnd?.eq_3 c _ noEnd, within]
    rfl

/-- The characters between two marks, and the marks. -/
theorem take_closed (opening closing : Char) (body more : List Char) :
    (opening :: (body ++ closing :: more)).take (body.length + 2) =
      opening :: body ++ [closing] := by
  rw [show body ++ closing :: more = (body ++ [closing]) ++ more by simp, List.take_succ_cons,
    List.take_left' (by simp)]
  rfl

/-- What continues a word does not depend on whether the word is a keyword. -/
theorem continues_wordKind (word : String) (slice : List Char) (next : Char) :
    continues (Scan.wordKind word) slice next = inIdentifier next := by
  unfold Scan.wordKind
  cases Keyword.ofSpelling? word <;> rfl

/-- The leading characters of a class are a lexeme as it stands. -/
theorem asWritten_append {p : Char → Bool} {c : Char} {rest more : List Char}
    (kind : List Char → Kind) (first : p c = true) (inside : ∀ d ∈ rest, p d = true)
    (stops : ∀ next ∈ more.head?, p next = false) :
    asWritten kind p (c :: (rest ++ more)) =
      (kind (c :: rest), String.ofList (c :: rest), (c :: rest).length) := by
  have within : ∀ d ∈ c :: rest, p d = true := by simpa [first] using inside
  rw [asWritten, ← List.cons_append, takeWhile_append_of_stops within stops]

/-- A path goes with what precedes and follows it, so that no comment opens in its place. -/
theorem read_path_append {last? : Option Char} {rest more : List Char}
    (inside : ∀ c ∈ rest, inPath c = true) (noComment : rest.head? ≠ some '*')
    (suits : Suits last? .path ('/' :: rest))
    (stops : ∀ next ∈ more.head?, inPath next = false) :
    read last? '/' (rest ++ more) =
      .ok (.path, String.ofList ('/' :: rest), ('/' :: rest).length) := by
  -- The slash or the star that would open a comment continues the path, so it is no stop.
  have ahead {d : Char} (first : (rest ++ more).head? = some d) (goesOn : inPath d = true) :
      rest.head? = some d := by
    cases rest with
    | nil => exact absurd (stops d first) (by simp [goesOn])
    | cons _ _ => exact first
  have noLine (second : (rest ++ more).head? = some '/') : last? = some ':' := by
    have second : rest[0]? = some '/' := by
      rw [← List.head?_eq_getElem?]
      exact ahead second (by decide)
    simpa using suits rfl second
  rw [read_path noLine fun star => noComment (ahead star (by decide)),
    asWritten_append _ (by decide) inside stops]

/-- A comment goes up to the line feed or to the end of the text. -/
theorem read_lineComment_append {last? : Option Char} {body more : List Char}
    (within : '\n' ∉ body) (suits : Suits last? .comment ('/' :: '/' :: body))
    (stops : ∀ next ∈ more.head?, next = '\n') :
    read last? '/' ('/' :: (body ++ more)) =
      .ok (.comment, String.ofList (Text.dropEndWhile (· = '\r') ('/' :: '/' :: body)),
        ('/' :: '/' :: body).length) := by
  have inLine : ∀ c ∈ '/' :: '/' :: body, (decide (c ≠ '\n')) = true := by
    intro c member
    have inside : c ∈ body → c ≠ '\n' := fun member => ne_of_mem_of_not_mem member within
    simp only [List.mem_cons] at member
    rcases member with rfl | rfl | member <;> simp_all
  have whole : lineComment ('/' :: '/' :: (body ++ more)) = '/' :: '/' :: body :=
    takeWhile_append_of_stops inLine fun next first => by simp [stops next first]
  rw [read_lineComment ((suits rfl rfl).mp rfl), whole]

/-- A raw text goes up to its closing backtick, whatever follows. -/
theorem read_rawText_append {last? : Option Char} {body more : List Char}
    (inside : '\x60' ∉ body) :
    read last? '\x60' (body ++ '\x60' :: more) =
      .ok (.rawText, String.ofList ('\x60' :: body ++ ['\x60']),
        ('\x60' :: body ++ ['\x60']).length) := by
  have count : countWhile (· ≠ '\x60') (body ++ '\x60' :: more) = body.length := by
    rw [countWhile, takeWhile_append_of_stops _ (by simp)]
    intro c member
    simpa using ne_of_mem_of_not_mem member inside
  have closed : ((body ++ '\x60' :: more).drop body.length).head? = some '\x60' := by simp
  rw [read_rawText, count, if_pos closed, take_closed]
  simp

/-- A lexeme as long as the characters behind it allow is read as a whole. -/
theorem read_of_spells {last? : Option Char} {kind : Kind} {value : String} {c : Char}
    {following slice more : List Char} (whole : c :: following = slice ++ more)
    (spelled : Spells kind slice value) (suits : Suits last? kind slice)
    (stops : ∀ next ∈ more.head?, continues kind slice next = false) :
    read last? c following = .ok (kind, value, slice.length) := by
  cases spelled with
  | newline =>
    cases whole
    rfl
  | @lineComment body within =>
    cases whole
    exact read_lineComment_append within suits fun next first => by
      simpa [continues] using stops next first
  | @blockComment body closed =>
    cases whole
    have length : (body ++ more).take body.length = body := List.take_left
    simp [read_blockComment, commentEnd?_append closed more, length]
  | @path rest inside noComment =>
    cases whole
    exact read_path_append inside noComment suits stops
  | @quotedText body value quoted =>
    simp only [List.append_assoc, List.cons_append, List.nil_append] at whole
    cases whole
    simp [read_quotedText, quoted.quotedBody_append more]
  | @rawText body inside =>
    simp only [List.append_assoc, List.cons_append, List.nil_append] at whole
    cases whole
    exact read_rawText_append inside
  | @number c rest digit inside =>
    cases whole
    exact (read_number digit).trans
      (congrArg _ (asWritten_append _ (inNumber_of_isDigit digit) inside stops))
  | @word c rest begins noNumber inside =>
    cases whole
    simp only [continues_wordKind] at stops
    exact (read_word begins noNumber).trans
      (congrArg _ (asWritten_append _ (inIdentifier_of_beginsIdentifier begins) inside stops))
  | marker found =>
    obtain ⟨name, spelling, inside, known⟩ : ∃ name, found.spelling.toList = '@' :: name ∧
        name.all inIdentifier = true ∧
        Marker.ofSpelling? ("@" ++ String.ofList name) = some found := by
      cases found <;> exact ⟨_, rfl, by decide, by decide⟩
    rw [List.all_eq_true] at inside
    rw [spelling] at whole ⊢
    cases whole
    rw [List.append_eq, read_marker, takeWhile_append_of_stops inside stops]
    simp only [known, List.length_cons]
  | mark found =>
    cases whole
    have known : Mark.ofChar? found.char = some found := by cases found <;> decide
    have noNumber : Text.isDigit found.char = false := by cases found <;> decide
    have noWord : beginsIdentifier found.char = false := by cases found <;> decide
    have noOpening : found.char ∉ ['\n', '/', '"', '\x60', '@'] := by cases found <;> decide
    simp [read_single noNumber noWord noOpening, known]

/-- A text begins with a lexeme of some kind and value, which is as long as the characters behind it
allow and goes with the character before it. -/
def BeginsWith (last? : Option Char) (text : List Char) (kind : Kind) (value : String)
    (count : Nat) : Prop :=
  ∃ slice more, text = slice ++ more ∧ slice.length = count ∧ Spells kind slice value ∧
    Suits last? kind slice ∧ ∀ next ∈ more.head?, continues kind slice next = false

/-- Only a lexeme that begins with a slash owes anything to what precedes it. -/
theorem suits_of_ne {last? : Option Char} {kind : Kind} {c : Char} {rest : List Char}
    (other : c ≠ '/') : Suits last? kind (c :: rest) :=
  fun first => absurd (by simpa using first) other

section BeginsWith

variable {last? : Option Char} {kind : Kind} {value : String} {c : Char}
  {following rest : List Char} {count : Nat}

/-- A reading of leading characters of a class is a lexeme, and as long as they go. -/
theorem beginsWith_asWritten (kindOf : List Char → Kind) (p : Char → Bool) (first : p c = true)
    (spells : ∀ rest, (∀ d ∈ rest, p d = true) → rest <+: following →
      Spells (kindOf (c :: rest)) (c :: rest) (String.ofList (c :: rest)) ∧
        Suits last? (kindOf (c :: rest)) (c :: rest))
    (stops : ∀ slice next, p next = false → continues (kindOf slice) slice next = false)
    (read : asWritten kindOf p (c :: following) = (kind, value, count)) :
    BeginsWith last? (c :: following) kind value count := by
  obtain ⟨more, whole, inside, ended⟩ := exists_takeWhile_append p following
  have taken : (c :: following).takeWhile p = c :: following.takeWhile p := by
    rw [List.takeWhile_cons_of_pos first]
  rw [asWritten, taken] at read
  cases read
  obtain ⟨spelled, suits⟩ := spells _ inside ⟨more, whole.symm⟩
  exact ⟨c :: following.takeWhile p, more, congrArg (c :: ·) whole, rfl, spelled, suits,
    fun next first => stops _ next (ended next first)⟩

theorem beginsWith_lineComment (noScheme : last? ≠ some ':')
    (found : read last? '/' ('/' :: rest) = .ok (kind, value, count)) :
    BeginsWith last? ('/' :: '/' :: rest) kind value count := by
  obtain ⟨more, whole, inside, ended⟩ := exists_takeWhile_append (· ≠ '\n') rest
  have raw : lineComment ('/' :: '/' :: rest) = '/' :: '/' :: rest.takeWhile (· ≠ '\n') := by
    simp [lineComment]
  rw [read_lineComment noScheme, raw] at found
  cases found
  refine ⟨'/' :: '/' :: rest.takeWhile (· ≠ '\n'), more, congrArg ('/' :: '/' :: ·) whole, rfl,
    .lineComment ?_, ?_, ?_⟩
  · exact fun member => by simpa using inside _ member
  · simp [Suits, noScheme]
  · intro next first
    simpa [continues] using ended next first

theorem beginsWith_blockComment (found : read last? '/' ('*' :: rest) = .ok (kind, value, count)) :
    BeginsWith last? ('/' :: '*' :: rest) kind value count := by
  rw [read_blockComment] at found
  cases closed : commentEnd? rest with
  | none => simp [closed] at found
  | some length =>
    obtain ⟨body, more, rfl, rfl, within⟩ := exists_comment closed
    simp only [closed, List.take_succ_cons, List.take_left] at found
    cases found
    exact ⟨'/' :: '*' :: body, more, rfl, rfl, .blockComment within, by simp [Suits],
      by simp [continues]⟩

theorem beginsWith_path (noLine : rest.head? = some '/' → last? = some ':')
    (noBlock : rest.head? ≠ some '*') (found : read last? '/' rest = .ok (kind, value, count)) :
    BeginsWith last? ('/' :: rest) kind value count := by
  rw [read_path noLine noBlock] at found
  refine beginsWith_asWritten (fun _ => .path) _ (by decide) ?_ (fun _ _ ended => ended)
    (Except.ok.inj found)
  rintro rest inside ⟨more, rfl⟩
  have ahead (d : Char) (first : rest.head? = some d) : (rest ++ more).head? = some d := by
    rw [List.head?_append, first]
    rfl
  refine ⟨.path inside fun star => noBlock (ahead _ star), fun _ second => ?_⟩
  have slash : rest.head? = some '/' := by simpa [List.head?_eq_getElem?] using second
  simpa using noLine (ahead _ slash)

theorem beginsWith_quotedText (found : read last? '"' rest = .ok (kind, value, count)) :
    BeginsWith last? ('"' :: rest) kind value count := by
  rw [read_quotedText] at found
  split at found
  · next closed =>
    obtain ⟨body, more, rfl, length, quoted⟩ := quotedAs_of_quotedBody rfl closed
    cases found
    exact ⟨'"' :: body ++ ['"'], more, by simp, by simp [length], .quotedText quoted,
      suits_of_ne (by decide), by simp [continues]⟩
  · cases found

theorem beginsWith_rawText (found : read last? '\x60' rest = .ok (kind, value, count)) :
    BeginsWith last? ('\x60' :: rest) kind value count := by
  obtain ⟨body, more, rfl, inside, length⟩ : ∃ body more, rest = body ++ more ∧ '\x60' ∉ body ∧
      countWhile (· ≠ '\x60') (body ++ more) = body.length := by
    obtain ⟨more, whole, inside, _⟩ := exists_takeWhile_append (· ≠ '\x60') rest
    exact ⟨_, more, whole, fun member => by simpa using inside _ member,
      by rw [← whole, countWhile]⟩
  rw [read_rawText, length, List.drop_left] at found
  split at found
  · next closed =>
    obtain ⟨more, rfl⟩ : ∃ rest, more = '\x60' :: rest := List.head?_eq_some_iff.mp closed
    rw [take_closed] at found
    cases found
    exact ⟨'\x60' :: body ++ ['\x60'], more, by simp, by simp, .rawText inside,
      suits_of_ne (by decide), by simp [continues]⟩
  · cases found

theorem beginsWith_number (digit : Text.isDigit c = true)
    (found : read last? c following = .ok (kind, value, count)) :
    BeginsWith last? (c :: following) kind value count := by
  rw [read_number digit] at found
  have noSlash : c ≠ '/' := ne_of_class digit (by decide)
  exact beginsWith_asWritten (fun _ => .number) _ (inNumber_of_isDigit digit)
    (fun rest inside _ => ⟨.number digit inside, suits_of_ne noSlash⟩) (fun _ _ ended => ended)
    (Except.ok.inj found)

theorem beginsWith_word (begins : beginsIdentifier c = true) (noNumber : Text.isDigit c = false)
    (found : read last? c following = .ok (kind, value, count)) :
    BeginsWith last? (c :: following) kind value count := by
  rw [read_word begins noNumber] at found
  have noSlash : c ≠ '/' := ne_of_class begins (by decide)
  exact beginsWith_asWritten _ _ (inIdentifier_of_beginsIdentifier begins)
    (fun rest inside _ => ⟨.word begins noNumber inside, suits_of_ne noSlash⟩)
    (fun slice next ended => (continues_wordKind _ slice next).trans ended) (Except.ok.inj found)

theorem beginsWith_marker (found : read last? '@' rest = .ok (kind, value, count)) :
    BeginsWith last? ('@' :: rest) kind value count := by
  rw [read_marker] at found
  obtain ⟨more, whole, inside, ended⟩ := exists_takeWhile_append inIdentifier rest
  generalize rest.takeWhile inIdentifier = name at whole inside found
  split at found
  · next marker known =>
    cases found
    have spelling : marker.spelling.toList = '@' :: name := by
      have same : marker.spelling = "@" ++ String.ofList name := by
        simpa using List.find?_some known
      simp [same]
    have spelled : Spells (.marker marker) ('@' :: name) marker.spelling :=
      spelling ▸ Spells.marker marker
    exact ⟨'@' :: name, more, congrArg _ whole, rfl, spelled, suits_of_ne (by decide), ended⟩
  · cases found

theorem beginsWith_single (noNumber : Text.isDigit c = false) (noWord : beginsIdentifier c = false)
    (noOpening : c ∉ ['\n', '/', '"', '\x60', '@'])
    (found : read last? c following = .ok (kind, value, count)) :
    BeginsWith last? (c :: following) kind value count := by
  rw [read_single noNumber noWord noOpening] at found
  split at found
  · next mark known =>
    cases found
    obtain rfl : mark.char = c := by simpa using List.find?_some known
    have noSlash : mark.char ≠ '/' := by rintro slash; simp [slash] at noOpening
    exact ⟨[mark.char], following, rfl, rfl, .mark mark, suits_of_ne noSlash, by simp [continues]⟩
  · cases found

/-- A lexeme that was read is spelled as the grammar says, and as long as it can be. -/
theorem beginsWith_of_read (found : read last? c following = .ok (kind, value, count)) :
    BeginsWith last? (c :: following) kind value count := by
  cases opening last? c following with
  | newline =>
    cases found
    exact ⟨['\n'], following, rfl, rfl, .newline, suits_of_ne (by decide), by simp [continues]⟩
  | lineComment noScheme => exact beginsWith_lineComment noScheme found
  | blockComment => exact beginsWith_blockComment found
  | path noLine noBlock => exact beginsWith_path noLine noBlock found
  | quotedText => exact beginsWith_quotedText found
  | rawText => exact beginsWith_rawText found
  | number digit => exact beginsWith_number digit found
  | word begins noNumber => exact beginsWith_word begins noNumber found
  | marker => exact beginsWith_marker found
  | single noNumber noWord noOpening => exact beginsWith_single noNumber noWord noOpening found

/-- The scanner reads the lexemes of the grammar, and each as far as it goes. -/
theorem read_eq_ok_iff :
    read last? c following = .ok (kind, value, count) ↔
      BeginsWith last? (c :: following) kind value count := by
  constructor
  · exact beginsWith_of_read
  · rintro ⟨slice, more, whole, rfl, spelled, suits, stops⟩
    exact read_of_spells whole spelled suits stops

end BeginsWith

end ApiDescription.Lexeme
