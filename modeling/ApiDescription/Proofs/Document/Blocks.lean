import ApiDescription.Proofs.Document.Lines
import ApiDescription.Proofs.OrderedMap

/-!
# Written property blocks

A property block is read as it is written: every line gives back its key and the text
its value quotes. The annotations of routes and route groups are such blocks, or
single words behind a marker.
-/

namespace ApiDescription

open Piece

/-- A property as it is written. -/
def propertyPieces (entry : Text × Text) : List Piece :=
  [.name entry.1, mark .colon, .blank, quoted entry.2]

/-- The lines of a property block between its parentheses. -/
def entryPieces (properties : Properties) : List Piece :=
  properties.entries.flatMap fun entry => propertyPieces entry ++ [feed]

/-- A property block with its parentheses. -/
def blockPieces (properties : Properties) : List Piece :=
  mark .leftParen :: feed :: (entryPieces properties ++ [mark .rightParen])

/-- The lines of properties between parentheses, each behind as many blanks. A key may be written
more than once. -/
def Line.ofEntries (indent : Nat) (opening : String) (entries : List (Text × Text)) : List Line :=
  (opening.toList ++ [' ', '(']) ::
    entries.map (fun entry => List.replicate indent ' ' ++ ofProperty entry.1 entry.2) ++ [[')']]

/-- The lines of properties between parentheses as they are written. -/
def indentedPieces (indent : Nat) (entries : List (Text × Text)) : List Piece :=
  entries.flatMap fun entry => List.replicate indent .blank ++ propertyPieces entry ++ [feed]

/-- Properties as they are written, with the parentheses around them. -/
def indentedBlock (indent : Nat) (entries : List (Text × Text)) : List Piece :=
  mark .leftParen :: feed :: (indentedPieces indent entries ++ [mark .rightParen])

/-- The properties of a block are written without blanks in front of them. -/
theorem indentedBlock_zero (properties : Properties) :
    indentedBlock 0 properties.entries = blockPieces properties := by
  simp [indentedBlock, indentedPieces, blockPieces, entryPieces]

/-- Blanks are characters of their own. -/
theorem Piece.textOf_replicate_blank (indent : Nat) :
    textOf (List.replicate indent .blank) = List.replicate indent ' ' := by
  induction indent with
  | zero => rfl
  | succ indent inductionHypothesis =>
    rw [List.replicate_succ, textOf_cons, inductionHypothesis]
    rfl

/-- What can be read where nothing is continued can be read behind blanks. -/
theorem Piece.Flows.blanks {pieces : List Piece} (flows : ∀ {before : Piece}, before.Open →
    Flows before pieces) (indent : Nat) {before : Piece} (opens : before.Open) :
    Flows before (List.replicate indent .blank ++ pieces) := by
  induction indent generalizing before with
  | zero => exact flows opens
  | succ indent inductionHypothesis =>
    exact .blank opens.wordlike (inductionHypothesis open_blank)

section Entries

variable {entries : List (Text × Text)}
  (wellFormed : ∀ entry ∈ entries, entry.1.IsName ∧ entry.2.isTextual = true) (indent : Nat)
include wellFormed

/-- The lines of properties in pieces. -/
theorem writtenAs_ofEntries (opening : Piece) {word : String}
    (spelling : opening.chars = word.toList)
    (opens : ∀ {rest}, Flows opening rest → Flows feed (opening :: rest))
    (wordlike : opening.Wordlike) :
    WrittenAs (Line.ofEntries indent word entries)
      (opening :: .blank :: indentedBlock indent entries ++ [feed]) := by
  have lines : WrittenAs
      (entries.map fun entry => List.replicate indent ' ' ++ Line.ofProperty entry.1 entry.2)
      (indentedPieces indent entries) := by
    rw [List.map_eq_flatMap]
    refine .flatMap fun entry member => .line ?_ ?_
    · rw [textOf_append, textOf_replicate_blank]
      simp [propertyPieces, Piece.name, plain, mark, quoted, chars, Line.ofProperty, Mark.char]
    · intro rest flows
      rw [List.append_assoc]
      refine .blanks (fun opens => ?_) indent open_feed
      exact .name (wellFormed entry member).1 opens (.mark .colon (wordlike_name _)
        (.blank (open_mark _).wordlike (.quoted _ open_blank (.feed flows))))
  have head : WrittenAs [word.toList ++ [' ', '(']]
      ([opening, .blank, mark .leftParen] ++ [feed]) := by
    refine .line ?_ fun flows => opens ?_
    · rw [textOf_cons, spelling]
      rfl
    · exact .blank wordlike (.mark .leftParen open_blank.wordlike (.feed flows))
  have last : WrittenAs [[')']] ([mark .rightParen] ++ [feed]) :=
    .line rfl fun flows => .mark .rightParen open_feed.wordlike (.feed flows)
  have whole := (head.append lines).append last
  simpa [Line.ofEntries, indentedBlock] using whole

end Entries

/-- The lines of a property block in pieces. -/
theorem writtenAs_ofProperties {properties : Properties}
    (wellFormed : PropertiesWellFormed properties) (opening : Piece) {word : String}
    (spelling : opening.chars = word.toList)
    (opens : ∀ {rest}, Flows opening rest → Flows feed (opening :: rest))
    (wordlike : opening.Wordlike) :
    WrittenAs (Line.ofProperties word properties)
      (opening :: .blank :: blockPieces properties ++ [feed]) := by
  have written := writtenAs_ofEntries wellFormed 0 opening spelling opens wordlike
  rw [indentedBlock_zero] at written
  exact written

namespace Rule

variable {place : Location} {before : Kind → Prop} (source : List Char)

/-- A name is read as it is written. -/
theorem reads_name (text : Text) :
    Reads place expectName [.name text]
      ⟨Scan.wordKind (String.ofList text.chars), String.ofList text.chars, place,
        (place.after text.chars).offset⟩ Anything := by
  refine reads_expectName _ _ _ ?_
  rcases Text.wordKind_cases (String.ofList text.chars) with kind | ⟨keyword, kind⟩ <;>
    simp [Token.isName, kind]

/-- A word is neither spacing nor a mark, and does not end the text. -/
theorem wordKind_apart (word : String) (closing : Mark) :
    NotSpacing (Scan.wordKind word) ∧ Scan.wordKind word ≠ .mark closing ∧
      Scan.wordKind word ≠ .endOfText := by
  rcases Text.wordKind_cases word with kind | ⟨keyword, kind⟩ <;> simp [NotSpacing, kind]

/-- The value of a property is the text that is quoted. -/
theorem reads_propertyValue {text : Text} (textual : text.isTextual = true) :
    Reads place (propertyValue source) [quoted text] text (· = .newline) := by
  intro more finish position ended next
  have tokens : (tokensAt place [quoted text] ++ more).takeWhile (fun token => !token.endsValue) =
      tokensAt place [quoted text] := by
    cases more with
    | nil => simp [quoted, tokensAt, Token.endsValue]
    | cons token more =>
      have newline : token.kind = .newline := next
      simp [quoted, tokensAt, Token.endsValue, newline]
  refine ⟨position + 1, ?_⟩
  rw [propertyValue]
  simp only [tokens]
  simp [quoted, tokensAt, valueOfTokens, text_plain textual, Stream.skip]

/-- A property is read as it is written. -/
theorem reads_property {entry : Text × Text}
    (wellFormed : entry.1.IsName ∧ entry.2.isTextual = true) :
    Reads place (property source) (propertyPieces entry) entry (· = .newline) := by
  refine (reads_name entry.1).bind_token ?_
  refine (reads_expect (.mark .colon) _ _).bind_token (.blank ?_)
  refine (reads_propertyValue source wellFormed.2).map ?_
  rw [text_plain wellFormed.1.textual]

/-- Blanks in front of pieces are not read. -/
theorem Reads.blanks {α : Type} {rule : Rule α} {pieces : List Piece} {value : α}
    (read : ∀ place, Reads place rule pieces value before) (indent : Nat) :
    Reads place rule (List.replicate indent .blank ++ pieces) value before := by
  induction indent generalizing place with
  | zero => exact read place
  | succ indent inductionHypothesis => exact .blank inductionHypothesis

/-- Properties are read as they are written, and the last value of a key counts. -/
theorem reads_indentedBlock {entries : List (Text × Text)}
    (wellFormed : ∀ entry ∈ entries, entry.1.IsName ∧ entry.2.isTextual = true) (indent : Nat) :
    Reads place (propertyBlock source) (indentedBlock indent entries) (OrderedMap.ofList entries)
      Anything := by
  refine (reads_expect (.mark .leftParen) _ _).bind_token ?_
  refine Reads.map ?_ rfl
  have shrinks := shrinks_property? source
  rw [property?_eq] at shrinks ⊢
  refine Reads.many_untilClosed skipsFeeds_skipSpacing (fun _ => reads_skipSpacing_nil) shrinks
    fun place => ?_
  have lines : Collects place (untilClosed skipSpacing (.mark .rightParen) .unterminatedProperties
      fun _ => property source) (indentedPieces indent entries) (entries.map id) Anything := by
    refine .flatMap fun entry member place => .line (skipsFeeds_skipSpacing.bind _) ?_
    refine Reads.blanks (fun place => ?_) indent
    refine Reads.untilClosed reads_skipSpacing_nil
      (reads_property source (wellFormed entry member)) fun _ _ => ?_
    exact wordKind_apart _ .rightParen
  rwa [List.map_id] at lines

/-- A property block is read as it is written. -/
theorem reads_propertyBlock {properties : Properties}
    (wellFormed : PropertiesWellFormed properties) :
    Reads place (propertyBlock source) (blockPieces properties) properties Anything := by
  have read : Reads place _ _ _ _ := reads_indentedBlock source wellFormed 0
  rwa [indentedBlock_zero, OrderedMap.ofList_entries] at read

end Rule

/-- A `@server` annotation as it is written. -/
def serverPieces : Option Properties → List Piece
  | some properties => marker .server :: .blank :: blockPieces properties ++ [feed]
  | none => []

/-- A `@doc` annotation as it is written. -/
def DocNote.pieces (note : DocNote) : List Piece :=
  match note.properties with
  | some properties => marker .doc :: .blank :: blockPieces properties ++ [feed]
  | none => if note.text = [] then [] else [marker .doc, .blank, quoted note.text, feed]

/-- The annotations of a `@doc` that may be absent. -/
def DocNote.notes (note : DocNote) : List RouteNote :=
  if note = {} then [] else [.doc note]

/-- A `@server` annotation in pieces. -/
theorem writtenAs_serverLines {server : Option Properties}
    (wellFormed : ∀ properties ∈ server, PropertiesWellFormed properties) :
    WrittenAs (serverLines server) (serverPieces server) := by
  cases server with
  | none => exact .nil
  | some properties =>
    exact writtenAs_ofProperties (wellFormed properties rfl) _ rfl (.marker .server open_feed)
      (wordlike_marker _)

/-- A `@doc` annotation in pieces. -/
theorem DocNote.WellFormed.writtenAs {note : DocNote} (wellFormed : note.WellFormed) :
    WrittenAs note.lines note.pieces := by
  obtain ⟨properties, text⟩ := note
  cases properties with
  | some properties =>
    exact writtenAs_ofProperties wellFormed.1 _ rfl (.marker .doc open_feed) (wordlike_marker _)
  | none =>
    dsimp only [DocNote.lines, DocNote.pieces]
    by_cases noText : text = []
    · rw [if_pos noText, if_pos noText]
      exact .nil
    · rw [if_neg noText, if_neg noText]
      change WrittenAs _ ([marker .doc, .blank, quoted text] ++ [feed])
      refine .line ?_ fun flows => ?_
      · rw [Line.ofWords_cons (by decide)]
        simp [marker, quoted, chars, Lexeme.quote, Marker.spelling]
      · exact .marker .doc open_feed
          (.blank (wordlike_marker _) (.quoted _ open_blank (.feed flows)))

namespace Rule

variable {place : Location} {before : Kind → Prop} (source : List Char)

/-- An annotation is read as its marker, what it introduces and the line feed behind it. -/
theorem reads_routeNote? {found : Marker} {pieces : List Piece} {note : RouteNote}
    (read : ∀ place, Reads place (noteBehind source found) pieces note (· = .newline)) :
    Reads place (routeNote? source) (marker found :: pieces ++ [feed]) (some note) NotSpacing := by
  intro more finish position ended next
  have rule : Reads (place.after (marker found).chars)
      (noteBehind source found >>= fun note => skipSpacing >>= fun _ => pure (some note))
      (pieces ++ [feed]) (some note) NotSpacing := by
    refine (read _).bind (reads_skipSpacing.map rfl) fun _ _ => rfl
  obtain ⟨further, done⟩ := rule more finish (position + 1) ended next
  refine ⟨further, ?_⟩
  rw [routeNote?_apply]
  exact done

/-- Where no marker comes next, there are no more annotations. -/
theorem reads_routeNote?_none :
    Reads place (routeNote? source) [] none (fun kind => ∀ found, kind ≠ .marker found) := by
  refine .peek fun stream next => ?_
  rw [routeNote?_apply]
  split
  · next found kind => exact absurd kind (next found)
  · rfl

/-- A `@doc` annotation is read as it is written. -/
theorem collects_doc {note : DocNote} (wellFormed : note.WellFormed) :
    Collects place (routeNote? source) note.pieces note.notes NotSpacing := by
  obtain ⟨properties, text⟩ := note
  cases properties with
  | some properties =>
    obtain ⟨keys, absent⟩ := wellFormed
    obtain rfl : text = [] := absent
    rw [DocNote.notes, if_neg (by simp)]
    refine .single (reads_routeNote? source fun place => .blank ?_)
    refine (reads_sees_of_ne .quotedText).bind_peek (Reads.map ?_ rfl) fun _ _ =>
      by simp [blockPieces]
    exact (reads_propertyBlock source keys).weaken fun _ _ => trivial
  | none =>
    have textual : text.isTextual = true := wellFormed
    by_cases absent : text = []
    · subst absent
      exact .nil
    · have pieces : DocNote.pieces ⟨none, text⟩ = marker .doc :: [.blank, quoted text] ++ [feed] :=
        if_neg absent
      rw [pieces, DocNote.notes, if_neg (by simpa using absent)]
      refine .single (reads_routeNote? source fun place => .blank ?_)
      refine (reads_sees .quotedText).bind_peek ?_ fun _ _ => rfl
      refine Reads.weaken (Reads.map (reads_advance .quotedText _ _) ?_) fun _ _ => trivial
      rw [text_plain textual]

/-- A `@server` annotation is read as it is written. -/
theorem collects_server {server : Option Properties}
    (wellFormed : ∀ properties ∈ server, PropertiesWellFormed properties) :
    Collects place (routeNote? source) (serverPieces server) (server.toList.map .server)
      NotSpacing := by
  cases server with
  | none => exact .nil
  | some properties =>
    refine .single (reads_routeNote? source fun place => .blank (Reads.map ?_ rfl))
    exact (reads_propertyBlock source (wellFormed properties rfl)).weaken fun _ _ => trivial

/-- A `@handler` annotation is read as it is written. -/
theorem collects_handler {handler : Text} (isName : handler.IsName) :
    Collects place (routeNote? source) [marker .handler, .blank, .name handler, feed]
      [.handler handler] NotSpacing := by
  change Collects _ _ (marker .handler :: [.blank, .name handler] ++ [feed]) _ _
  refine .single (reads_routeNote? source fun place => .blank ?_)
  refine Reads.weaken ((reads_name handler).map ?_) fun _ _ => trivial
  rw [text_plain isName.textual]

end Rule

end ApiDescription
