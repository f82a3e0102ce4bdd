import ApiDescription.Proofs.Document.Types
import ApiDescription.Proofs.Grammar.TypeTokens
import ApiDescription.Proofs.Token.Values
import ApiDescription.Spec.OfDocument

/-!
# The names of types

A type is named by the tokens it was read from, without what stood between them. Its name
is a text of its own: written next to each other the tokens neither run together nor fall
apart, so that the name is read as these tokens again, and they as the same type. The
strings that the normal form keeps of a type therefore determine it.
-/

namespace ApiDescription

open Piece

namespace Token.Spelled

variable {token : Token}

/-- The value of a mark or a keyword is what its kind fixes. -/
theorem text_eq (spelled : token.Spelled) : token.text = token.spelling := by
  obtain ⟨kind, value, start, stop⟩ := token
  obtain ⟨slice, spelled⟩ := spelled
  cases spelled with
  | @word c rest _ _ _ =>
    rw [spelling]
    dsimp only [Scan.wordKind]
    cases found : Keyword.ofSpelling? (String.ofList (c :: rest)) with
    | none => rfl
    | some word =>
      have same : word.spelling = String.ofList (c :: rest) := by
        simpa using List.find?_some found
      exact congrArg Text.ofString same.symm
  | _ => rfl

/-- An identifier or a number stands for itself. -/
theorem isLexeme (spelled : token.Spelled)
    (kind : token.kind = .identifier ∨ token.kind = .number) :
    token.text.IsLexeme token.kind := by
  obtain ⟨slice, spelled⟩ := spelled
  have value : token.value = String.ofList slice := by
    rw [spelled.value_eq]
    rcases kind with kind | kind <;> rw [kind] <;> rfl
  have chars : token.text.chars = slice := by
    rw [Token.text, value, Text.ofString, String.toList_ofList, Text.chars_ofChars]
  refine ⟨Text.isTextual_ofChars _, ?_⟩
  rw [chars, ← value]
  exact spelled

end Token.Spelled

/-- The stream over the tokens of a text: every token but the end of the text is spelled. -/
theorem exists_stream_of_spelled {text : List Char} {tokens : List Token}
    (lexed : tokenize text = .ok tokens) :
    ∃ others finish, tokens = others ++ [finish] ∧ finish.kind = .endOfText ∧
      Stream.ofTokens tokens = ⟨others, finish, 0⟩ ∧ ∀ token ∈ others, token.Spelled := by
  obtain ⟨others, place, rfl, -⟩ := exists_tiles_of_tokenize lexed
  obtain ⟨spelled, -⟩ := spelled_of_tokenize lexed
  exact ⟨others, Token.finish place, rfl, rfl,
    Stream.ofTokens_append (fun token member => (spelled token member).goesOn) rfl, spelled⟩

namespace TypeExpr

/-- A type that is made of tokens of a text is written in their pieces. -/
theorem MadeOf.exists_written {type : TypeExpr} {used : List Token}
    (made : type.MadeOf Token.text used) (spelled : ∀ token ∈ used, token.Spelled) :
    ∃ pieces, type.Written pieces := by
  have known (token : Token) (member : token ∈ used) : token.text = token.spelling :=
    (spelled token member).text_eq
  induction made with
  | @word token kind =>
    have lexeme := (spelled token (by simp)).isLexeme (.inl kind)
    rw [kind] at lexeme
    rw [List.flatMap_singleton]
    exact ⟨_, .name lexeme⟩
  | @qualified first dot second kind dotKind secondKind =>
    have lexeme := (spelled first (by simp)).isLexeme (.inl kind)
    have secondLexeme := (spelled second (by simp)).isLexeme (.inl secondKind)
    rw [kind] at lexeme
    rw [secondKind] at secondLexeme
    rw [qualified_eq (known first (by simp)) kind (known dot (by simp)) dotKind
      (known second (by simp)) secondKind]
    exact ⟨_, .qualified lexeme secondLexeme⟩
  | @interface word opening closing kind openingKind closingKind =>
    rw [emptyInterface_eq (known word (by simp)) kind (known opening (by simp)) openingKind
      (known closing (by simp)) closingKind]
    exact ⟨_, .interface⟩
  | @pointer star target used kind inside inductionHypothesis =>
    rw [List.forall_mem_cons] at spelled known
    obtain ⟨pieces, written⟩ := inductionHypothesis spelled.2 known.2
    rw [pointer_eq known.1 kind inside.name_eq]
    exact ⟨_, .pointer written⟩
  | @slice opening closing value used kind closingKind inside inductionHypothesis =>
    simp only [List.forall_mem_cons] at spelled known
    obtain ⟨pieces, written⟩ := inductionHypothesis spelled.2.2 known.2.2
    have sized : [].flatMap Token.text = [] := rfl
    have name := array_eq known.1 kind sized known.2.1 closingKind inside.name_eq
    rw [List.nil_append] at name
    rw [name]
    exact ⟨_, .slice written⟩
  | @array opening size closing value used kind sizeKind closingKind inside inductionHypothesis =>
    simp only [List.forall_mem_cons] at spelled known
    obtain ⟨pieces, written⟩ := inductionHypothesis spelled.2.2.2 known.2.2.2
    have lexeme := spelled.2.1.isLexeme (.inr sizeKind)
    rw [sizeKind] at lexeme
    have sized : [size].flatMap Token.text = size.text := List.flatMap_singleton _ _
    have name := array_eq known.1 kind sized known.2.2.1 closingKind inside.name_eq
    rw [List.singleton_append] at name
    rw [name]
    exact ⟨_, .array lexeme written⟩
  | @map word opening closing key value keyUsed used kind openingKind keyInside closingKind inside
      keyHypothesis inductionHypothesis =>
    simp only [List.forall_mem_cons, List.forall_mem_append] at spelled known
    obtain ⟨keyPieces, keyWritten⟩ := keyHypothesis spelled.2.2.1 known.2.2.1
    obtain ⟨pieces, written⟩ := inductionHypothesis spelled.2.2.2.2 known.2.2.2.2
    rw [map_eq known.1 kind known.2.1 openingKind keyInside.name_eq known.2.2.2.1 closingKind
      inside.name_eq]
    exact ⟨_, .map keyWritten written⟩

namespace Written

variable {type : TypeExpr} {pieces : List Piece}

/-- The pieces of a type stand at the start of a text. -/
theorem flows_start (written : type.Written pieces) : Flows feed pieces := by
  have flows : Flows feed (pieces ++ []) := written.flows open_feed fun _ _ => trivial
  rwa [List.append_nil] at flows

/-- The name of a type is read as the type and nothing behind it. -/
theorem reads_name (written : type.Written pieces) :
    ∃ tokens last, tokenize type.name.chars = .ok tokens ∧
      Rule.typeExpr (.ofTokens tokens) = .ok type last ∧ last.ahead = [] ∧
      last.current.kind = .endOfText := by
  have lexed := written.flows_start.tokenize
  rw [written.text] at lexed
  obtain ⟨others, finish, split, ends, stream, -⟩ := exists_stream_of_spelled lexed
  obtain ⟨rfl, same⟩ := List.append_inj' split rfl
  have reads : Rule.Reads .start Rule.typeExpr pieces type (· ≠ .mark .dot) :=
    Rule.reads_typeExpr written
  obtain ⟨further, read⟩ := reads [] finish 0 ends (by simp [Stream.current, ends])
  rw [List.append_nil] at read
  exact ⟨_, ⟨[], finish, further⟩, lexed, by rw [stream, read], rfl, ends⟩

/-- Types that can be written are told apart by their names. -/
theorem eq_of_name_eq {other : TypeExpr} {otherPieces : List Piece} (written : type.Written pieces)
    (otherWritten : other.Written otherPieces) (same : other.name = type.name) : other = type := by
  obtain ⟨tokens, last, lexed, read, -⟩ := written.reads_name
  obtain ⟨otherTokens, otherLast, otherLexed, otherRead, -⟩ := otherWritten.reads_name
  rw [same, lexed] at otherLexed
  cases otherLexed
  rw [read] at otherRead
  exact (EStateM.Result.ok.inj otherRead).1.symm

/-- A type that can be written has a name. -/
theorem name_ne_nil (written : type.Written pieces) : type.name ≠ [] := by
  intro unnamed
  have text := written.text
  rw [unnamed] at text
  have flows := written.flows_start
  cases pieces with
  | nil => exact nomatch written
  | cons piece rest =>
    rw [textOf_cons] at text
    exact flows.1.chars_ne_nil (List.append_eq_nil_iff.mp text).1

end Written

end TypeExpr

/-- Tokens of a text that make up a type are a way to write it. -/
theorem Rule.takes_written (depth : Nat) :
    Takes Token.Spelled
      (fun type used => type.MadeOf Token.text used ∧ ∃ pieces, type.Written pieces)
      (typeWithin depth) :=
  (takes_typeWithin depth).weaken (fun _ spelled => spelled.text_eq)
    fun _ _ spelled made => ⟨made, made.exists_written spelled⟩

namespace TypeExpr

/-- A type that is read at some place of some text. -/
def IsRead (type : TypeExpr) : Prop :=
  ∃ text tokens position next, tokenize text = .ok tokens ∧
    Rule.typeExpr ((Stream.ofTokens tokens).skip position) = .ok type next

/-- A type that is read is made of the tokens that are taken, and can be written. -/
theorem exists_written_of_read {text : List Char} {tokens : List Token} {position : Nat}
    {type : TypeExpr} {next : Stream} (lexed : tokenize text = .ok tokens)
    (read : Rule.typeExpr ((Stream.ofTokens tokens).skip position) = .ok type next) :
    ∃ used, ((Stream.ofTokens tokens).skip position).ahead = used ++ next.ahead ∧
      type.MadeOf Token.text used ∧ ∃ pieces, type.Written pieces := by
  obtain ⟨others, finish, rfl, ends, stream, spelled⟩ := exists_stream_of_spelled lexed
  rw [stream] at read ⊢
  have known : ∀ token ∈ (Stream.skip ⟨others, finish, 0⟩ position).ahead, token.Spelled :=
    fun token member => spelled token (List.mem_of_mem_drop member)
  obtain ⟨used, split, -, made, written⟩ :=
    Rule.takes_written _ (.skip ⟨others, finish, 0⟩ position) type next ends known read
  exact ⟨used, split, made, written⟩

/-- A type that is read can be written. -/
theorem IsRead.exists_written {type : TypeExpr} (isRead : type.IsRead) :
    ∃ pieces, type.Written pieces := by
  obtain ⟨text, tokens, position, next, lexed, read⟩ := isRead
  exact (exists_written_of_read lexed read).choose_spec.2.2

/-- What the name of a type says that was read between two streams. -/
structure Rendered (stream next : Stream) (type : TypeExpr) : Prop where
  /-- At every level the type is named by the tokens it was read from, and it was read from all
  that were taken. -/
  taken : ∃ used, stream.ahead = used ++ next.ahead ∧ type.MadeOf Token.text used ∧
    type.name = used.flatMap Token.text
  /-- The name is a text of characters. -/
  textual : Text.ofChars type.name.chars = type.name
  /-- The name is read as the type, and nothing is left behind it. -/
  again : ∃ tokens last, tokenize type.name.chars = .ok tokens ∧
    Rule.typeExpr (.ofTokens tokens) = .ok type last ∧ last.ahead = [] ∧
    last.current.kind = .endOfText
  /-- The field of a member has the name of no other type. -/
  field : ∀ member other : Member, member.type = type → other.type.IsRead →
    (Spec.Field.ofMember other).type = (Spec.Field.ofMember member).type → other.type = type
  /-- The request of a route has the name of no other type, and not that of no type. -/
  request : ∀ route other : Route, route.request = some type →
    (∀ found ∈ other.request, found.IsRead) →
    (Spec.Route.ofRoute other).request = (Spec.Route.ofRoute route).request →
      other.request = some type
  /-- The response of a route has the name of no other type, and not that of no type. -/
  response : ∀ route other : Route, route.response = some type →
    (∀ found ∈ other.response, found.IsRead) →
    (Spec.Route.ofRoute other).response = (Spec.Route.ofRoute route).response →
      other.response = some type

/-- The name of a body says which type it has, and whether it has one. -/
theorem Written.body_eq {type : TypeExpr} {pieces : List Piece} (written : type.Written pieces)
    {body : Option TypeExpr} (isRead : ∀ found ∈ body, found.IsRead)
    (same : Spec.bodyName body = Spec.bodyName (some type)) : body = some type := by
  cases body with
  | none => exact absurd same.symm written.name_ne_nil
  | some found =>
    obtain ⟨otherPieces, otherWritten⟩ := (isRead found rfl).exists_written
    rw [written.eq_of_name_eq otherWritten same]

/-- A type is named by the tokens it was read from, and its name is read as the same type. -/
theorem rendered_of_read {text : List Char} {tokens : List Token} {position : Nat}
    {type : TypeExpr} {next : Stream} (lexed : tokenize text = .ok tokens)
    (read : Rule.typeExpr ((Stream.ofTokens tokens).skip position) = .ok type next) :
    type.Rendered ((Stream.ofTokens tokens).skip position) next := by
  obtain ⟨used, split, made, pieces, written⟩ := exists_written_of_read lexed read
  constructor
  case taken => exact ⟨used, split, made, made.name_eq⟩
  case textual =>
    have textual : type.name.isTextual = true := by
      simp [made.name_eq, Text.isTextual, Token.text, Text.ofString, Text.ofChars, CodePoint.char?]
    exact Text.ofChars_chars textual
  case again => exact written.reads_name
  case field =>
    rintro member other rfl isRead same
    obtain ⟨otherPieces, otherWritten⟩ := isRead.exists_written
    exact written.eq_of_name_eq otherWritten same
  case request =>
    intro route other isType isRead same
    refine written.body_eq isRead ?_
    rw [← isType]
    exact same
  case response =>
    intro route other isType isRead same
    refine written.body_eq isRead ?_
    rw [← isType]
    exact same

/-- A map from arrays of numbers to pointers, written with blanks and a comment behind it. -/
theorem rendered_of_read_map :
    let text := "x map [ [2]int ] * pkg . User // c".toList
    let type : TypeExpr := .mapOf (.arrayOf "2" (.primitive "int")) (.pointerTo (.named "pkg.User"))
    ∃ tokens next, tokenize text = .ok tokens ∧
      Rule.typeExpr ((Stream.ofTokens tokens).skip 1) = .ok type next ∧
      type.name = Text.ofString "map[[2]int]*pkg.User" ∧
      type.Rendered ((Stream.ofTokens tokens).skip 1) next := by
  intro text type
  let tokens := (tokenize text).toOption.getD []
  let next := Rule.streamBehind (Rule.typeExpr ((Stream.ofTokens tokens).skip 1))
  have lexed : tokenize text = .ok tokens := by decide +kernel
  have read : Rule.typeExpr ((Stream.ofTokens tokens).skip 1) = .ok type next := by
    decide +kernel
  exact ⟨tokens, next, lexed, read, by decide +kernel, rendered_of_read lexed read⟩

end TypeExpr

end ApiDescription
