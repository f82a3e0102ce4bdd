import ApiDescription.Proofs.Document.Joining
import ApiDescription.Proofs.Document.Services

/-!
# Lines above a description

Lines that are written above a description are read as they are written, and what is below them is
read as at the start of a text. They may hold whole declarations, as an info block does, or begin
the first declaration below them, as the annotation of a service block does.
-/

namespace ApiDescription

open Piece

/-- Lines end with a line feed. -/
theorem Line.getLast?_text (lines : List Line) : ∀ c ∈ (text lines).getLast?, c = '\n' := by
  obtain rfl | ⟨lines, line, rfl⟩ := lines.eq_nil_or_concat
  · simp [text]
  · simp [text]

/-- The tokens of lines above a text are those of the lines and those of the text, displaced. -/
theorem WrittenAs.tokenize_append {lines : List Line} {pieces : List Piece}
    (written : WrittenAs lines pieces) {below : List Char} {tokens : List Token}
    (read : tokenize below = .ok tokens) :
    tokenize (Line.text lines ++ below) =
      .ok (tokensAt .start pieces ++
        tokens.map (Displacement.below (Line.text lines)).token) := by
  obtain ⟨others, last, run, blank, rfl⟩ := exists_rounds_of_tokenize read
  have ahead : (Cursor.ofText (Line.text lines ++ below)).rest = textOf pieces ++ below := by
    rw [written.text]
    rfl
  have flows : Flows feed pieces := by
    have flows := written.flows (show Flows feed [] from trivial)
    rwa [List.append_nil] at flows
  have stops (c : Char) : (pieces.getLastD feed).continues c = false := by
    rw [written.last]
    exact open_feed c
  obtain ⟨reached, passed, same⟩ := flows.exists_rounds ahead (fun c _ => stops c)
    (by simp [feed, chars, Cursor.last?, Cursor.ofText])
  let cursor : Cursor := ⟨(Line.text lines).reverse, below, Location.start.after (Line.text lines)⟩
  have reaches : (Cursor.ofText (Line.text lines ++ below)).skip (textOf pieces).length =
      cursor := by
    rw [Cursor.skip_length ahead, written.text]
    simp [Cursor.ofText, cursor]
  rw [reaches] at same
  have placed : cursor.Placed := by simp [Cursor.Placed, cursor]
  have displaced := placed.displaced_lineStart
    (by simpa [Cursor.last?, cursor] using Line.getLast?_text lines)
  rw [show cursor.before.reverse = Line.text lines from List.reverse_reverse _] at displaced
  exact tokenize_of_moved passed same displaced.moved run
    (show _ = roundEnd none _ from Scan.token?_eq_none_iff.mpr ⟨blank, rfl⟩)

namespace Rule

/-- Pieces at the start of a text that make other declarations of those read behind them. -/
def Heads (source : List Char) (pieces : List Piece) (later all : List Declaration) : Prop :=
  ∀ more finish, finish.kind = .endOfText → ∃ passed, ∀ last,
    Rounds (declaration? source) ⟨more, finish, passed⟩ later last →
      ∃ wholeLast, Rounds (declaration? source) ⟨tokensAt .start pieces ++ more, finish, 0⟩ all
        wholeLast ∧ declaration? source wholeLast = declaration? source last

/-- Whole declarations come in front of those behind them. -/
theorem Collects.heads {source : List Char} {pieces : List Piece} {items : List Declaration}
    (collects : Collects .start (declaration? source) pieces items Anything)
    (later : List Declaration) : Heads source pieces later (items ++ later) := by
  intro more finish ended
  obtain ⟨middle, passed, run, same⟩ := collects more finish 0 ended trivial
  refine ⟨passed, fun last laterRun => ?_⟩
  obtain ⟨wholeLast, whole, ends⟩ := Rounds.exists_of_round_eq same ⟨last, laterRun, rfl⟩
  exact ⟨wholeLast, run.append whole, ends⟩

section Annotated

variable {source : List Char} {stream other next : Stream} {name : Text}
  {group : RouteGroup} {properties : Properties}

/-- Where there is no annotation nothing is read. -/
theorem eq_of_groupServer_none (read : groupServer source stream = .ok none next) :
    next = stream := by
  obtain ⟨accepted, _, readMarker, read⟩ := bind_eq_ok_iff.mp read
  rw [accepts_apply] at readMarker
  split at readMarker
  · cases readMarker
    obtain ⟨_, _, _, read⟩ := bind_eq_ok_iff.mp read
    obtain ⟨_, _, _, answered⟩ := bind_eq_ok_iff.mp read
    exact nomatch answered
  · cases readMarker
    cases read
    rfl

/-- Behind an annotation a service block is read as without one. -/
theorem serviceGroup_annotated (plain : group.server = none)
    (annotated : groupServer source other = .ok (some properties) stream)
    (read : serviceGroup source stream = .ok (name, group) next) :
    serviceGroup source other = .ok (name, { group with server := some properties }) next := by
  obtain ⟨server, _, readServer, read⟩ := bind_eq_ok_iff.mp read
  obtain ⟨word, _, readWord, read⟩ := bind_eq_ok_iff.mp read
  obtain ⟨found, _, readName, read⟩ := bind_eq_ok_iff.mp read
  obtain ⟨brace, _, readBrace, read⟩ := bind_eq_ok_iff.mp read
  obtain ⟨routes, _, readRoutes, answered⟩ := bind_eq_ok_iff.mp read
  cases answered
  obtain rfl : server = none := plain
  obtain rfl := eq_of_groupServer_none readServer
  rw [serviceGroup, bind_apply, annotated]
  simp only [bind_apply, readWord, readName, readBrace, readRoutes]
  rfl

/-- The marker of an annotation begins a service block. -/
theorem declaration?_of_serviceGroup (begins : stream.current.kind = .marker .server)
    (read : serviceGroup source stream = .ok (name, group) next) :
    declaration? source stream = .ok (some (.group name group)) next := by
  have noDocs : docs stream = .ok [] stream := by
    have run : stream.ahead.takeWhile Token.isSpacing = [] := by
      cases ahead : stream.ahead with
      | nil => rfl
      | cons token rest =>
        rw [Stream.current_of_cons ahead] at begins
        rw [List.takeWhile_cons_of_neg (by simp [Token.isSpacing, begins])]
    rw [docs_apply, run]
    rfl
  rw [declaration?_eq, bind_apply, noDocs]
  simp only [declarationBelow, begins, declarationOf, bind_apply, read]
  rfl

end Annotated

/-- An annotation is passed with the spacing behind it, where `passed` tokens have been read up to
its last line feed. -/
theorem exists_groupServer_annotated {entries : List (Text × Text)}
    (wellFormed : ∀ entry ∈ entries, entry.1.IsName ∧ entry.2.isTextual = true) (indent : Nat)
    (source : List Char) {newline finish : Token} (isFeed : newline.kind = .newline)
    (ended : finish.kind = .endOfText) (more : List Token) :
    ∃ passed, ∀ middle, skipSpacing ⟨more, finish, passed⟩ = .ok () middle →
      groupServer source
          ⟨tokensAt .start (marker .server :: .blank :: indentedBlock indent entries) ++
            newline :: more, finish, 0⟩ =
        .ok (some (.ofList entries)) middle := by
  have reads : Reads .start (accepts (.marker .server) >>= fun _ => propertyBlock source)
      (marker .server :: .blank :: indentedBlock indent entries) (.ofList entries) Anything :=
    (reads_accepts (.marker .server) _ _).bind_token
      (.blank (reads_indentedBlock source wellFormed indent))
  obtain ⟨passed, read⟩ := reads (newline :: more) finish 0 ended trivial
  obtain ⟨accepted, behind, readMarker, readBlock⟩ := bind_eq_ok_iff.mp read
  refine ⟨passed + 1, fun middle skipped => ?_⟩
  rw [← skipsFeeds_skipSpacing newline more finish passed isFeed] at skipped
  cases ((accepts_apply (.marker .server) _).trans (if_pos rfl)).symm.trans readMarker
  rw [groupServer, bind_apply, readMarker]
  simp only [if_true, bind_apply, readBlock, skipped]
  rfl

/-- An annotation belongs to the service block below it. -/
theorem heads_annotated {entries : List (Text × Text)}
    (wellFormed : ∀ entry ∈ entries, entry.1.IsName ∧ entry.2.isTextual = true) (indent : Nat)
    (source : List Char) {name : Text} {group : RouteGroup} (plain : group.server = none)
    (rest : List Declaration) :
    Heads source (marker .server :: .blank :: indentedBlock indent entries ++ [feed])
      (.group name group :: rest)
      (.group name { group with server := some (.ofList entries) } :: rest) := by
  intro more finish ended
  obtain ⟨newline, isFeed, written⟩ : ∃ newline : Token, newline.kind = .newline ∧
      tokensAt .start (marker .server :: .blank :: indentedBlock indent entries ++ [feed]) =
        tokensAt .start (marker .server :: .blank :: indentedBlock indent entries) ++ [newline] :=
    ⟨_, rfl, tokensAt_append _ _ _⟩
  rw [written, List.append_assoc, List.singleton_append]
  obtain ⟨passed, annotated⟩ :=
    exists_groupServer_annotated wellFormed indent source isFeed ended more
  refine ⟨passed, fun last run => ?_⟩
  cases run with
  | more read later =>
    obtain ⟨comments, middle, readDocs, readGroup⟩ := exists_readBetween_of_declaration? read
    -- the spacing behind the annotation is what is passed in front of the block that has none
    have skipped : skipSpacing ⟨more, finish, passed⟩ = .ok () middle := by
      rw [docs_apply] at readDocs
      cases readDocs
      rfl
    have whole := declaration?_of_serviceGroup rfl
      (serviceGroup_annotated plain (annotated middle skipped) readGroup)
    exact ⟨last, .more whole later, rfl⟩

end Rule

namespace Document

/-- An empty text declares nothing. -/
theorem declared_nil : declared [] = .ok [] := rfl

/-- What lines make of the declarations of the text below them. -/
theorem declared_lines {lines : List Line} {pieces : List Piece}
    (written : WrittenAs lines pieces) {below : List Char} {later all : List Declaration}
    (heads : Rule.Heads (Line.text lines ++ below) pieces later all)
    (read : declared below = .ok later) : declared (Line.text lines ++ below) = .ok all := by
  obtain ⟨tokens, finish, left, lexed, ends, inside, readAll, -⟩ := exists_stream_of_declared read
  let moved := Displacement.below (Line.text lines)
  have wholeEnds : (moved.token finish).kind = .endOfText := ends
  obtain ⟨passed, leads⟩ := heads (tokens.map moved.token) (moved.token finish) wholeEnds
  have relocated := many_declaration?_moved (show moved.characters = _ from rfl) ends inside passed
  have start : moved.relocation.stream passed ⟨tokens, finish, 0⟩ =
      ⟨tokens.map moved.token, moved.token finish, passed⟩ := by
    simp [Relocation.stream, Displacement.relocation]
  rw [readAll, start] at relocated
  obtain ⟨last, run, ended⟩ := (many_eq_ok_iff (Rule.shrinks_declaration? _)
    (show Stream.Ended ⟨_, moved.token finish, passed⟩ from wholeEnds)).mp relocated
  obtain ⟨wholeLast, whole, same⟩ := leads last run
  have all := (many_eq_ok_iff (Rule.shrinks_declaration? (Line.text lines ++ below))
    (show Stream.Ended ⟨_, moved.token finish, 0⟩ from wholeEnds)).mpr ⟨wholeLast, whole,
      same.trans ended⟩
  have wholeLexed := written.tokenize_append lexed
  obtain ⟨others, other, split, -, known⟩ := exists_stream_of_tokenize wholeLexed
  rw [List.map_append, List.map_singleton, ← List.append_assoc] at wholeLexed split
  obtain ⟨rfl, -⟩ := List.append_inj' split rfl
  rw [declared, wholeLexed]
  dsimp only
  rw [Stream.ofTokens_append (fun token member => (known token member).1.1) wholeEnds, all]

/-- The properties of an annotation belong to the service block below it. -/
theorem declared_annotated {entries : List (Text × Text)}
    (wellFormed : ∀ entry ∈ entries, entry.1.IsName ∧ entry.2.isTextual = true) (indent : Nat)
    {below : List Char} {name : Text} {group : RouteGroup} {rest : List Declaration}
    (plain : group.server = none) (read : declared below = .ok (.group name group :: rest)) :
    declared (Line.text (Line.ofEntries indent "@server" entries) ++ below) =
      .ok (.group name { group with server := some (.ofList entries) } :: rest) := by
  have written : WrittenAs (Line.ofEntries indent "@server" entries) _ :=
    writtenAs_ofEntries wellFormed indent (.marker .server) rfl (.marker .server open_feed)
      (wordlike_marker _)
  exact declared_lines written (Rule.heads_annotated wellFormed indent _ plain rest) read

/-- What may stand above a declaration: nothing, or a description and a blank line. -/
inductive Opening : List Char → List Declaration → Prop
  | nothing : Opening [] []
  | description {text : List Char} {declarations : List Declaration}
      (read : declared text = .ok declarations) : Opening (text ++ "\n\n".toList) declarations

/-- A description is read behind what may stand above it. -/
theorem Opening.declared_append {above text : List Char} {earlier later : List Declaration}
    (opening : Opening above earlier) (read : declared text = .ok later) :
    declared (above ++ text) = .ok (earlier ++ later) := by
  cases opening with
  | nothing => exact read
  | description first =>
    have joined := Document.declared_append first text
    rw [read] at joined
    simpa using joined

end Document

end ApiDescription
