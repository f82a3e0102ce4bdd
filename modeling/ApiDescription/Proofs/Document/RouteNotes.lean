import ApiDescription.Proofs.Document.PropertyLines
import Mathlib.Data.List.Nodup

/-!
# The order of a route's annotations

A route has at most one annotation of each kind, and each stands on lines of its own. In whatever
order they stand, each is read from its own lines, and what they say together is the same. The
line of the route is therefore judged alike: the route needs a handler, and it does not matter where
the annotation that names it stands.
-/

namespace ApiDescription

/-- The marker an annotation begins with. -/
def RouteNote.marker : RouteNote → Marker
  | .doc _ => .doc
  | .server _ => .server
  | .handler _ => .handler

namespace RouteNotes

variable {notes others : List RouteNote} {note : RouteNote}

/-- Annotations of two kinds say the same in either order. -/
theorem add_comm {first second : RouteNote} (apart : first.marker ≠ second.marker)
    (notes : RouteNotes) : (notes.add first).add second = (notes.add second).add first := by
  cases first <;> cases second <;> first | rfl | exact absurd rfl apart

/-- Annotations of different kinds say the same in every order. -/
theorem ofList_perm (distinct : (notes.map RouteNote.marker).Nodup) (perm : notes.Perm others) :
    ofList notes = ofList others := by
  refine perm.foldl_eq' (fun first isFirst second isSecond said => ?_) ({} : RouteNotes)
  by_cases same : first = second
  · rw [same]
  · refine add_comm (fun alike => ?_) said
    exact same (List.inj_on_of_nodup_map distinct isFirst isSecond alike)

/-- Among annotations of different kinds each may be taken for the last one. -/
theorem exists_add_of_mem (distinct : (notes.map RouteNote.marker).Nodup) (member : note ∈ notes) :
    ∃ others, notes.Perm (others ++ [note]) ∧ ofList notes = (ofList others).add note := by
  obtain ⟨above, below, rfl⟩ := List.append_of_mem member
  have perm : (above ++ note :: below).Perm ((above ++ below) ++ [note]) :=
    List.perm_middle.trans (List.perm_append_singleton _ _).symm
  refine ⟨above ++ below, perm, ?_⟩
  rw [ofList_perm distinct perm, ofList, List.foldl_append]
  rfl

/-- Without a `@handler` no name is given by one. -/
theorem handler_ofList (none : ∀ name, .handler name ∉ notes) : (ofList notes).handler = [] := by
  refine List.foldlRecOn (motive := (·.handler = [])) notes add (b := {}) rfl ?_
  intro said unnamed note member
  cases note with
  | handler name => exact absurd member (none name)
  | _ => exact unnamed

/-- Without a `@server` there are no properties. -/
theorem server_ofList (none : ∀ properties, .server properties ∉ notes) :
    (ofList notes).server = Option.none := by
  refine List.foldlRecOn (motive := (·.server = Option.none)) notes add (b := {}) rfl ?_
  intro said unserved note member
  cases note with
  | server properties => exact absurd member (none properties)
  | _ => exact unserved

/-- A `@handler` names the handler. -/
theorem handlerName_of_handler (distinct : (notes.map RouteNote.marker).Nodup) {name : Text}
    (named : name ≠ []) (member : .handler name ∈ notes) : (ofList notes).handlerName = name := by
  obtain ⟨others, -, said⟩ := exists_add_of_mem distinct member
  rw [said, handlerName]
  exact if_neg named

/-- Without a `@handler` the property of a `@server` names the handler. -/
theorem handlerName_of_server (distinct : (notes.map RouteNote.marker).Nodup)
    (none : ∀ name, .handler name ∉ notes) {properties : Properties}
    (member : .server properties ∈ notes) :
    (ofList notes).handlerName = properties.text "handler" := by
  obtain ⟨others, -, said⟩ := exists_add_of_mem distinct member
  have server : (ofList notes).server = some properties := by rw [said]; rfl
  rw [handlerName, if_pos (handler_ofList none), server]
  rfl

/-- With neither of them the handler has no name. -/
theorem handlerName_eq_nil (noHandler : ∀ name, .handler name ∉ notes)
    (noServer : ∀ properties, .server properties ∉ notes) : (ofList notes).handlerName = [] := by
  rw [handlerName, if_pos (handler_ofList noHandler), server_ofList noServer]
  rfl

end RouteNotes

/-- What the line of a route says. -/
structure RouteCall where
  method : Token
  path : Token
  request : Option TypeExpr
  response : Option TypeExpr
  comment : Text
  deriving DecidableEq, Repr

namespace RouteCall

/-- The route that a line makes of what the annotations above it say. -/
def route (call : RouteCall) (notes : RouteNotes) (docs : List Text) : Route where
  handler := notes.handlerName
  method := Text.ofString call.method.value.toLower
  path := Text.ofString call.path.value
  request := call.request
  response := call.response
  doc := notes.doc
  docs := docs
  comment := call.comment
  server := notes.server

/-- The cause of refusing a line whose handler has no name. -/
def missingHandler (call : RouteCall) : SyntaxError.Cause :=
  .missingHandler call.method.value.toLower call.path.value

end RouteCall

namespace Rule

/-- The line of a route, whatever its annotations say. -/
def routeCall : Rule RouteCall := do
  let method ← expectName
  refuseIf (httpMethods.contains method.value.toLower = false) method (.unknownMethod method.value)
  let path ← expect .path
  let request ← bodyIf (sees (.mark .leftParen))
  let response ← bodyIf (accepts (.keyword .returns))
  let comment ← trailingComment method.start.line
  lineEnd
  return { method, path, request, response, comment }

/-- The annotations only decide on the handler, when the line has been read. -/
theorem routeLine_eq (notes : RouteNotes) (docs : List Text) :
    routeLine notes docs =
      routeCall >>= fun call =>
        refuseIf (notes.handlerName = []) call.method call.missingHandler >>= fun _ =>
          pure (call.route notes docs) := by
  simp only [routeLine, routeCall, bind_assoc, pure_bind]
  rfl

/-- The stream behind a rule that has taken some tokens. -/
theorem Forward.eq_of_ahead {α : Type} {rule : Rule α} (forward : Forward rule)
    {stream next : Stream} {value : α} (ended : stream.Ended) (read : rule stream = .ok value next)
    {taken : List Token} (ahead : stream.ahead = taken ++ next.ahead) :
    next = ⟨next.ahead, stream.finish, stream.position + taken.length⟩ := by
  obtain ⟨count, rfl⟩ := forward.of_ok ended read
  have behind : (stream.ahead.take count).length = taken.length := by
    have both := congrArg List.length ahead
    simp only [Stream.skip, List.length_append, List.length_drop] at both
    rw [List.length_take]
    omega
  rw [← behind]
  rfl

end Rule

/-- The tokens an annotation is written with. Those of a property block are read to their end. -/
inductive RouteNote.Spelled (source : List Char) : RouteNote → List Token → Prop
  | docText {marker text : Token} (opens : marker.kind = .marker .doc)
      (quoted : text.kind = .quotedText) :
      Spelled source (.doc { text := text.text }) [marker, text]
  | docBlock {marker finish : Token} {block : List Token} {properties : Properties} {next : Stream}
      (opens : marker.kind = .marker .doc) (ends : finish.kind = .endOfText)
      (read : Rule.propertyBlock source ⟨block, finish, 0⟩ = .ok properties next)
      (whole : next.ahead = []) :
      Spelled source (.doc { properties := some properties }) (marker :: block)
  | server {marker finish : Token} {block : List Token} {properties : Properties} {next : Stream}
      (opens : marker.kind = .marker .server) (ends : finish.kind = .endOfText)
      (read : Rule.propertyBlock source ⟨block, finish, 0⟩ = .ok properties next)
      (whole : next.ahead = []) :
      Spelled source (.server properties) (marker :: block)
  | handler {marker name : Token} (opens : marker.kind = .marker .handler)
      (isName : name.isName = true) : Spelled source (.handler name.text) [marker, name]

namespace RouteNote.Spelled

variable {source : List Char} {note : RouteNote} {tokens : List Token}

/-- Behind its marker an annotation is read to its end. -/
theorem exists_noteBehind (spelled : note.Spelled source tokens) :
    ∃ opening behind finish next, tokens = opening :: behind ∧
      opening.kind = .marker note.marker ∧ finish.kind = .endOfText ∧
      Rule.noteBehind source note.marker ⟨behind, finish, 0⟩ = .ok note next ∧
      next.ahead = [] := by
  cases spelled with
  | @docText opening text opens quoted =>
    refine ⟨opening, [text], Token.finish .start, ⟨[], Token.finish .start, 1⟩, rfl, opens, rfl,
      ?_, rfl⟩
    rw [marker, Rule.noteBehind_doc_apply]
    exact if_pos quoted
  | @docBlock opening finish block properties next opens ends read whole =>
    refine ⟨opening, block, finish, next, rfl, opens, ends, ?_, whole⟩
    have unquoted : (⟨block, finish, 0⟩ : Stream).current.kind ≠ .quotedText := by
      intro quoted
      obtain ⟨_, _, expected, -⟩ := bind_eq_ok_iff.mp read
      rw [Rule.expect_apply, quoted] at expected
      exact nomatch expected
    rw [marker, Rule.noteBehind_doc_apply, if_neg unquoted]
    exact bind_eq_ok_iff.mpr ⟨properties, next, read, rfl⟩
  | @server opening finish block properties next opens ends read whole =>
    exact ⟨opening, block, finish, next, rfl, opens, ends,
      bind_eq_ok_iff.mpr ⟨properties, next, read, rfl⟩, whole⟩
  | @handler opening name opens isName =>
    refine ⟨opening, [name], Token.finish .start, ⟨[], Token.finish .start, 1⟩, rfl, opens, rfl,
      bind_eq_ok_iff.mpr ⟨name, ⟨[], Token.finish .start, 1⟩, ?_, rfl⟩, rfl⟩
    rw [Rule.expectName_apply]
    exact if_pos isName

/-- On its lines, with blank lines below it, an annotation is read as it is alone, whatever else
follows. -/
theorem routeNote?_eq (spelled : note.Spelled source tokens)
    (inside : ∀ token ∈ tokens, token.Inside source) (more : List Char) {feeds later : List Token}
    (blank : ∀ token ∈ feeds, token.kind = .newline) (ended : feeds ≠ [])
    (stops : ∀ token ∈ later.head?, token.isSpacing = false) {finish : Token}
    (ends : finish.kind = .endOfText) :
    Rule.routeNote? (source ++ more) ⟨tokens ++ feeds ++ later, finish, 0⟩ =
      .ok (some note) ⟨later, finish, (tokens ++ feeds).length⟩ := by
  obtain ⟨opening, behind, alone, next, rfl, opens, aloneEnds, read, whole⟩ :=
    spelled.exists_noteBehind
  have spaces : ∀ token ∈ feeds, token.isSpacing = true := fun token member => by
    rw [Token.isSpacing, blank token member]
  -- the note is read in front of the first of the line feeds as at the end of its own text
  let longer : Stream := ⟨behind ++ (feeds ++ later), finish, 1⟩
  have readLonger : Rule.noteBehind (source ++ more) note.marker longer =
      .ok note ⟨feeds ++ later, finish, 1 + behind.length⟩ := by
    obtain ⟨feed, rest, rfl⟩ := List.exists_cons_of_ne_nil ended
    let extension : Extension := ⟨feed, rest ++ later, Token.Inside source, blank feed (by simp)⟩
    have before : extension.Before ⟨behind, alone, 0⟩ longer :=
      ⟨aloneEnds, rfl, fun token member => inside token (by simp [member])⟩
    obtain ⟨last, readLonger, lastBefore⟩ := Extension.Carries.noteBehind
      (valueOfTokens_append_left source more) note.marker _ _ _ _ before read
    have ahead : last.ahead = feed :: rest ++ later := by rw [lastBefore.ahead, whole]; rfl
    have isLast := (Rule.forward_noteBehind _ _).eq_of_ahead (show longer.Ended from ends)
      readLonger (show longer.ahead = behind ++ last.ahead by rw [ahead])
    rw [readLonger, isLast, ahead]
  have passed : (⟨opening :: behind ++ feeds ++ later, finish, 0⟩ : Stream).next = longer := by
    simp [Stream.next, longer]
  rw [Rule.routeNote?_apply, Stream.current_of_cons rfl, opens]
  dsimp only
  rw [bind_apply, Rule.advance_apply, passed]
  dsimp only
  rw [bind_apply, readLonger]
  dsimp only
  rw [bind_apply, Rule.skipSpacing_append spaces stops]
  simp [pure_apply, Nat.add_comm, Nat.add_assoc]

end RouteNote.Spelled

/-- An annotation on lines of its own, of which the last line feed is left out. Blank lines may
stand below it. -/
structure NoteLines where
  text : List Char
  note : RouteNote
  tokens : List Token
  blanks : List Token
  finish : Token
  read : tokenize text = .ok (tokens ++ blanks ++ [finish])
  spelled : note.Spelled text tokens
  isBlank : ∀ token ∈ blanks, token.kind = .newline

namespace NoteLines

/-- The lines of annotations one below the other. -/
def textOf (notes : List NoteLines) : List Char := notes.flatMap fun lines => lines.text ++ ['\n']

/-- The number of tokens of these lines. -/
def countOf : List NoteLines → Nat
  | [] => 0
  | lines :: notes => (lines.tokens ++ lines.blanks).length + 1 + countOf notes

/-- The tokens of an annotation are in its text, and its names are not empty. -/
theorem inside (lines : NoteLines) : ∀ token ∈ lines.tokens,
    token.Inside lines.text ∧ (token.isName = true → token.text ≠ []) := by
  obtain ⟨others, finish, split, -, known⟩ := exists_stream_of_tokenize lines.read
  obtain ⟨rfl, -⟩ := List.append_inj' split rfl
  exact fun token member => known token (List.mem_append_left _ member)

/-- A `@handler` has a name. -/
theorem handler_ne_nil {lines : NoteLines} {name : Text} (isHandler : lines.note = .handler name) :
    name ≠ [] := by
  have spelled := lines.spelled
  have named := lines.inside
  rw [isHandler] at spelled
  generalize lines.tokens = tokens at spelled named
  cases spelled with
  | @handler marker token opens isName => exact (named token (by simp)).2 isName

end NoteLines

/-- Places below two stretches of lines are displaced by both. -/
theorem Displacement.token_below_append (first second : List Char) (token : Token) :
    (below (first ++ second)).token token = (below first).token ((below second).token token) := by
  simp only [Displacement.token, Displacement.location, below, List.length_append,
    List.count_append, Nat.add_assoc, Nat.add_comm first.length, Nat.add_comm (first.count _)]

/-- A stream below two stretches of lines is displaced by both. -/
theorem Displacement.stream_below_append (first second : List Char) (further more : Nat)
    (stream : Stream) :
    (below (first ++ second)).relocation.stream (further + more) stream =
      (below first).relocation.stream further ((below second).relocation.stream more stream) := by
  have token := token_below_append first second
  simp only [Relocation.stream, Displacement.relocation, List.map_map, token, Nat.add_assoc,
    Nat.add_comm further]
  congr 1
  exact List.map_congr_left fun found _ => token found

/-- Nothing is displaced below no lines. -/
theorem Displacement.stream_below_nil (stream : Stream) :
    (below []).relocation.stream 0 stream = stream := by
  have token : (below []).relocation.token = id := rfl
  simp [Relocation.stream, token]

namespace NoteLines

/-- Annotations are read one after the other from their lines, up to what stands below them. -/
theorem exists_rounds {below : List Char} {line : List Token} {finish : Token}
    (read : tokenize below = .ok (line ++ [finish])) (ends : finish.kind = .endOfText)
    (stops : ∀ token ∈ line.head?, token.isSpacing = false) (written : below ≠ [])
    (notes : List NoteLines) :
    ∃ tokens last, tokenize (textOf notes ++ below) = .ok (tokens ++ [last]) ∧
      last.kind = .endOfText ∧ (∀ token ∈ tokens.head?, token.isSpacing = false) ∧
      Rounds (Rule.routeNote? (textOf notes ++ below)) ⟨tokens, last, 0⟩ (notes.map (·.note))
        ((Displacement.below (textOf notes)).relocation.stream (countOf notes)
          ⟨line, finish, 0⟩) := by
  induction notes with
  | nil =>
    refine ⟨line, finish, read, ends, stops, ?_⟩
    have start := Displacement.stream_below_nil ⟨line, finish, 0⟩
    simp only [textOf, countOf, List.flatMap_nil, start]
    exact .none _
  | cons lines notes inductionHypothesis =>
    obtain ⟨tokens, last, readRest, lastEnds, stopsRest, run⟩ := inductionHypothesis
    obtain ⟨others, _, feed, split, isFeed, whole⟩ :=
      tokenize_line lines.read (textOf notes ++ below)
    obtain ⟨rfl, -⟩ := List.append_inj' split rfl
    let moved := Displacement.below (lines.text ++ ['\n'])
    have text : textOf (lines :: notes) ++ below =
        lines.text ++ '\n' :: (textOf notes ++ below) := by simp [textOf]
    have blank : ∀ token ∈ lines.blanks ++ [feed], token.kind = .newline := by
      simpa [or_imp, forall_and, isFeed] using lines.isBlank
    have stopsMoved : ∀ token ∈ (tokens.map moved.token).head?, token.isSpacing = false := by
      intro token isFirst
      rw [List.head?_map] at isFirst
      obtain ⟨found, here, rfl⟩ := Option.map_eq_some_iff.mp isFirst
      exact stopsRest found here
    have first := lines.spelled.routeNote?_eq (fun token member => (lines.inside token member).1)
      ('\n' :: (textOf notes ++ below)) blank (by simp) stopsMoved
      (show (moved.token last).kind = .endOfText from lastEnds)
    have agrees (tokens : List Token) :
        valueOfTokens (lines.text ++ ['\n'] ++ (textOf notes ++ below))
            (tokens.map moved.relocation.token) = valueOfTokens (textOf notes ++ below) tokens :=
      valueOfTokens_append_right rfl
        (List.append_ne_nil_of_right_ne_nil (textOf notes) written) tokens
    have later : Rounds _ (moved.relocation.stream
        (lines.tokens ++ (lines.blanks ++ [feed])).length _) _ _ :=
      Relocation.Relocates.rounds_routeNote? agrees run
    rw [readRest] at whole
    rw [text]
    refine ⟨lines.tokens ++ (lines.blanks ++ [feed]) ++ tokens.map moved.token, moved.token last,
      ?_, lastEnds, ?_, ?_⟩
    · simpa using whole
    · obtain ⟨opening, behind, _, _, tokensOf, opens, -⟩ := lines.spelled.exists_noteBehind
      simp [tokensOf, Token.isSpacing, opens]
    · have count : countOf (lines :: notes) =
          (lines.tokens ++ (lines.blanks ++ [feed])).length + countOf notes := by
        simp [countOf, Nat.add_assoc]
      have front : textOf (lines :: notes) = lines.text ++ ['\n'] ++ textOf notes := by
        simp [textOf]
      rw [count, front, Displacement.stream_below_append]
      refine .more first ?_
      simpa [Relocation.stream, moved, Displacement.relocation] using later

end NoteLines

/-- Lines above a place of a text, and the number of their tokens. They can be read up to the line
feed that ends them. -/
inductive WholeLines : List Char → Nat → Prop
  | none : WholeLines [] 0
  | lines {text : List Char} {tokens : List Token} (read : tokenize text = .ok tokens) :
      WholeLines (text ++ ['\n']) tokens.length

/-- Behind whole lines the tokens of a text are read displaced. -/
theorem WholeLines.exists_stream {above : List Char} {passed : Nat}
    (lines : WholeLines above passed)
    {text : List Char} {tokens : List Token} {finish : Token}
    (read : tokenize text = .ok (tokens ++ [finish])) :
    ∃ all, tokenize (above ++ text) = .ok all ∧
      (Stream.ofTokens all).skip passed =
        (Displacement.below above).relocation.stream passed ⟨tokens, finish, 0⟩ := by
  obtain ⟨_, _, split, ends, known⟩ := exists_stream_of_tokenize read
  obtain ⟨rfl, isFinish⟩ := List.append_inj' split rfl
  obtain rfl := List.singleton_inj.mp isFinish
  let moved := Displacement.below above
  obtain ⟨others, rfl, goesOn, whole⟩ : ∃ others : List Token, others.length = passed ∧
      (∀ token ∈ others, token.kind ≠ .endOfText) ∧
      tokenize (above ++ text) = .ok (others ++ (tokens ++ [finish]).map moved.token) := by
    cases lines with
    | none =>
      have token : moved.token = id := rfl
      exact ⟨[], rfl, by simp, by simpa [token] using read⟩
    | @lines first _ readAbove =>
      obtain ⟨others, _, feed, rfl, isFeed, whole⟩ := tokenize_line readAbove text
      obtain ⟨_, _, split, -, knownAbove⟩ := exists_stream_of_tokenize readAbove
      obtain ⟨rfl, -⟩ := List.append_inj' split rfl
      rw [read] at whole
      refine ⟨others ++ [feed], by simp, ?_, by simpa using whole⟩
      simpa [or_imp, forall_and, isFeed] using fun token member => (knownAbove token member).1.1
  refine ⟨_, whole, ?_⟩
  have goesOnBelow : ∀ token ∈ others ++ tokens.map moved.token, token.kind ≠ .endOfText := by
    intro token member
    rcases List.mem_append.mp member with isAbove | isBelow
    · exact goesOn token isAbove
    · obtain ⟨found, here, rfl⟩ := List.mem_map.mp isBelow
      exact (known found here).1.1
  have stream := Stream.ofTokens_append goesOnBelow
    (show (moved.token finish).kind = .endOfText from ends)
  rw [List.map_append, ← List.append_assoc, List.map_singleton, stream]
  simp [Stream.skip, Relocation.stream, moved, Displacement.relocation]

namespace Route

/-- Reading a route from the tokens of a text, behind some of them. -/
def readFrom (text : List Char) (passed : Nat) (docs : List Text) : Except SyntaxError Route :=
  match tokenize text with
  | .error fault => .error fault
  | .ok tokens =>
    match Rule.route text docs ((Stream.ofTokens tokens).skip passed) with
    | .ok route _ => .ok route
    | .error fault _ => .error fault

section Lines

variable {above below : List Char} {passed : Nat} {line : List Token}

/-- The annotations of a route are read one after the other, and then its line as it is alone. -/
theorem readFrom_notes (lines : WholeLines above passed) (read : tokenize below = .ok line)
    (begins : ∃ first ∈ line.head?, first.kind ≠ .endOfText ∧ first.isSpacing = false ∧
      ∀ found, first.kind ≠ .marker found) (notes : List NoteLines) (docs : List Text) :
    readFrom (above ++ (NoteLines.textOf notes ++ below)) passed docs =
      match Rule.routeLine (.ofList (notes.map (·.note))) docs (.ofTokens line) with
      | .ok route _ => .ok route
      | .error fault _ =>
        .error ((Displacement.below (above ++ NoteLines.textOf notes)).relocation.fault fault) := by
  obtain ⟨tokens, finish, rfl, ends, known⟩ := exists_stream_of_tokenize read
  obtain ⟨first, isFirst, goesOn, noSpacing, noMarker⟩ := begins
  cases tokens with
  | nil =>
    cases isFirst
    exact absurd ends goesOn
  | cons _ rest =>
    cases isFirst
    have written : below ≠ [] := by
      rintro rfl
      exact nomatch eq_nil_of_inside fun token member => (known token member).1
    obtain ⟨tokens, last, readNotes, lastEnds, -, run⟩ :=
      NoteLines.exists_rounds read ends (by simpa using noSpacing) written notes
    have agrees (tokens : List Token) :
        valueOfTokens (above ++ (NoteLines.textOf notes ++ below))
            (tokens.map (Displacement.below above).relocation.token) =
          valueOfTokens (NoteLines.textOf notes ++ below) tokens :=
      valueOfTokens_append_right rfl
        (List.append_ne_nil_of_right_ne_nil (NoteLines.textOf notes) written) tokens
    have moved : Rounds _ ((Displacement.below above).relocation.stream passed _) _ _ :=
      Relocation.Relocates.rounds_routeNote? agrees run
    rw [← Displacement.stream_below_append] at moved
    have none (stream : Stream) (same : stream.current.kind = first.kind) :
        Rule.routeNote? (above ++ (NoteLines.textOf notes ++ below)) stream = .ok none stream := by
      rw [Rule.routeNote?_apply, same]
      cases kind : first.kind with
      | marker found => exact absurd kind (noMarker found)
      | _ => rfl
    have startEnded : Stream.Ended ((Displacement.below above).relocation.stream passed
        ⟨tokens, last, 0⟩) := lastEnds
    have all := (many_eq_ok_iff (Rule.shrinks_routeNote? _) startEnded).mpr ⟨_, moved, none _ rfl⟩
    obtain ⟨start, whole, atStart⟩ := lines.exists_stream readNotes
    simp only [readFrom, whole, atStart]
    rw [Rule.route_eq, bind_apply, all]
    dsimp only
    rw [Relocation.Relocates.routeLine,
      Stream.ofTokens_append (fun token member => (known token member).1.1) ends]
    cases Rule.routeLine (.ofList (notes.map (·.note))) docs ⟨first :: rest, finish, 0⟩ <;> rfl

/-- The order in which the annotations of a route stand does not matter. In every order, and with
any blank lines below them, either the same route is read or the same fault is found, that of the
route's line or that of a handler without a name. The handler is the one that a `@handler` names, or
else the property of that name in a `@server`. -/
theorem readFrom_perm (lines : WholeLines above passed) (read : tokenize below = .ok line)
    (begins : ∃ first ∈ line.head?, first.kind ≠ .endOfText ∧ first.isSpacing = false ∧
      ∀ found, first.kind ≠ .marker found) {notes : List NoteLines}
    (distinct : (notes.map (·.note.marker)).Nodup) (docs : List Text) :
    let written := notes.map (·.note)
    let said := RouteNotes.ofList written
    (∀ others : List NoteLines, (others.map (·.note)).Perm written →
      let found := (Displacement.below (above ++ NoteLines.textOf others)).relocation.fault
      readFrom (above ++ (NoteLines.textOf others ++ below)) passed docs =
        match Rule.routeCall (.ofTokens line) with
        | .error fault _ => .error (found fault)
        | .ok call _ =>
          if said.handlerName = [] then
            .error (found (.located call.missingHandler call.method.start))
          else .ok (call.route said docs)) ∧
    (∀ name, .handler name ∈ written → name ≠ [] ∧ said.handlerName = name) ∧
    ((∀ name, .handler name ∉ written) →
      (∀ properties, .server properties ∈ written →
        said.handlerName = properties.text "handler") ∧
      ((∀ properties, .server properties ∉ written) → said.handlerName = [])) := by
  intro written said
  have apart : (written.map RouteNote.marker).Nodup := by
    rw [List.map_map]
    exact distinct
  refine ⟨fun others perm => ?_, fun name member => ?_, fun none => ⟨fun properties member => ?_,
    fun noServer => ?_⟩⟩
  · have same : RouteNotes.ofList (others.map (·.note)) = said :=
      (RouteNotes.ofList_perm apart perm.symm).symm
    rw [readFrom_notes lines read begins, same, Rule.routeLine_eq, bind_apply]
    cases Rule.routeCall (.ofTokens line) with
    | error fault next => rfl
    | ok call next =>
      by_cases unnamed : said.handlerName = []
      · simp only [unnamed, if_true, Rule.refuseIf]
        rfl
      · simp only [unnamed, if_false, Rule.refuseIf]
        rfl
  · obtain ⟨note, -, isHandler⟩ := List.mem_map.mp member
    have named := NoteLines.handler_ne_nil isHandler
    exact ⟨named, RouteNotes.handlerName_of_handler apart named member⟩
  · exact RouteNotes.handlerName_of_server apart none member
  · exact RouteNotes.handlerName_eq_nil none noServer

end Lines

/-- A route whose handler is a property is read alike with its `@doc` above and below its
`@server`. -/
theorem readFrom_perm_server :
    let above := "service s \x7b".toList ++ ['\n']
    let doc := "@doc \"list\"".toList ++ ['\n']
    let server := "@server (\n handler: all\n)\n".toList ++ ['\n']
    let below := "get /a\n\x7d".toList
    let route : Route :=
      { handler := "all", method := "get", path := "/a", doc := { text := "list" },
        server := some (.ofList [("handler", "all")]) }
    readFrom (above ++ (doc ++ (server ++ []) ++ below)) 4 [] = .ok route ∧
      readFrom (above ++ (server ++ (doc ++ []) ++ below)) 4 [] = .ok route := by
  intro _ _ _ _ route
  let list : Token := ⟨.quotedText, "list", ⟨5, 1, 6⟩, 11⟩
  let doc : NoteLines :=
    { text := "@doc \"list\"".toList
      note := .doc { text := "list" }
      tokens := [⟨.marker .doc, "@doc", ⟨0, 1, 1⟩, 4⟩, list]
      blanks := []
      finish := ⟨.endOfText, "", ⟨11, 1, 12⟩, 11⟩
      read := by decide +kernel
      spelled := @RouteNote.Spelled.docText _ _ list rfl rfl
      isBlank := by simp }
  let block : List Token :=
    [⟨.mark .leftParen, "(", ⟨8, 1, 9⟩, 9⟩, ⟨.newline, "\\n", ⟨9, 1, 10⟩, 10⟩,
     ⟨.identifier, "handler", ⟨11, 2, 2⟩, 18⟩, ⟨.mark .colon, ":", ⟨18, 2, 9⟩, 19⟩,
     ⟨.identifier, "all", ⟨20, 2, 11⟩, 23⟩, ⟨.newline, "\\n", ⟨23, 2, 14⟩, 24⟩,
     ⟨.mark .rightParen, ")", ⟨24, 3, 1⟩, 25⟩]
  let finish : Token := ⟨.endOfText, "", ⟨26, 4, 1⟩, 26⟩
  have readBlock : Rule.propertyBlock "@server (\n handler: all\n)\n".toList ⟨block, finish, 0⟩ =
      .ok (.ofList [("handler", "all")]) ⟨[], finish, 7⟩ := by decide +kernel
  let server : NoteLines :=
    { text := "@server (\n handler: all\n)\n".toList
      note := .server (.ofList [("handler", "all")])
      tokens := ⟨.marker .server, "@server", ⟨0, 1, 1⟩, 7⟩ :: block
      blanks := [⟨.newline, "\\n", ⟨25, 3, 2⟩, 26⟩]
      finish
      read := by decide +kernel
      spelled := .server rfl rfl readBlock rfl
      isBlank := by simp }
  let method : Token := ⟨.identifier, "get", ⟨0, 1, 1⟩, 3⟩
  let path : Token := ⟨.path, "/a", ⟨4, 1, 5⟩, 6⟩
  let line : List Token :=
    [method, path, ⟨.newline, "\\n", ⟨6, 1, 7⟩, 7⟩, ⟨.mark .rightBrace, "\x7d", ⟨7, 2, 1⟩, 8⟩,
     ⟨.endOfText, "", ⟨8, 2, 2⟩, 8⟩]
  have read : tokenize "get /a\n\x7d".toList = .ok line := by decide +kernel
  have readAbove : tokenize "service s \x7b".toList = .ok
      [⟨.keyword .service, "service", ⟨0, 1, 1⟩, 7⟩, ⟨.identifier, "s", ⟨8, 1, 9⟩, 9⟩,
       ⟨.mark .leftBrace, "\x7b", ⟨10, 1, 11⟩, 11⟩, ⟨.endOfText, "", ⟨11, 1, 12⟩, 11⟩] := by
    decide +kernel
  have apart : ([doc, server].map (·.note.marker)).Nodup :=
    (by decide : [Marker.doc, Marker.server].Nodup)
  have noMarker (found : Marker) : Kind.identifier ≠ .marker found := nofun
  have shown := (readFrom_perm (.lines readAbove) read ⟨_, rfl, by decide, by decide, noMarker⟩
    apart []).1
  have call : Rule.routeCall (.ofTokens line) =
      .ok ⟨method, path, none, none, []⟩
        ⟨[⟨.mark .rightBrace, "\x7d", ⟨7, 2, 1⟩, 8⟩], ⟨.endOfText, "", ⟨8, 2, 2⟩, 8⟩, 3⟩ := by
    decide +kernel
  let said : RouteNotes :=
    .ofList [.doc { text := "list" }, .server (.ofList [("handler", "all")])]
  have named : said.handlerName ≠ [] := by decide +kernel
  have answer : RouteCall.route ⟨method, path, none, none, []⟩ said [] = route := by
    decide +kernel
  have accepted (fault : SyntaxError) :
      (if said.handlerName = [] then Except.error fault
        else .ok (RouteCall.route ⟨method, path, none, none, []⟩ said [])) = .ok route := by
    rw [if_neg named, answer]
  rw [call] at shown
  exact ⟨(shown [doc, server] (.refl _)).trans (accepted _),
    (shown [server, doc] (.swap _ _ _)).trans (accepted _)⟩

end Route

end ApiDescription
