import ApiDescription.Proofs.Document.Structs

/-!
# Written services

Routes and their groups are read as they are written: a route from its docs, its
annotations and its line, a group from the annotation above it and the block of its
service.
-/

namespace ApiDescription

open Piece

/-- The body of a request as it is written, behind a blank. -/
inductive Requests : Option TypeExpr → List Piece → Prop
  | none : Requests none []
  | some {type : TypeExpr} {pieces : List Piece} (written : type.Written pieces) :
      Requests (some type) (.blank :: mark .leftParen :: (pieces ++ [mark .rightParen]))

/-- The body of a response as it is written, behind the word that announces it. -/
inductive Responds : Option TypeExpr → List Piece → Prop
  | none : Responds none []
  | some {type : TypeExpr} {pieces : List Piece} (requests : Requests (some type) pieces) :
      Responds (some type) (.blank :: keyword .returns :: pieces)

/-- Every body that can be written down is written somehow. -/
theorem exists_requests {body : Option TypeExpr} (wellFormed : ∀ type ∈ body, type.WellFormed) :
    ∃ pieces, Requests body pieces := by
  cases body with
  | none => exact ⟨[], .none⟩
  | some type =>
    obtain ⟨pieces, written⟩ := wellFormed type rfl
    exact ⟨_, .some written⟩

/-- Every response that can be written down is written somehow. -/
theorem exists_responds {body : Option TypeExpr} (wellFormed : ∀ type ∈ body, type.WellFormed) :
    ∃ pieces, Responds body pieces := by
  obtain ⟨pieces, requests⟩ := exists_requests wellFormed
  cases body with
  | none => exact ⟨[], .none⟩
  | some type => exact ⟨_, .some requests⟩

section Bodies

variable {body : Option TypeExpr} {pieces : List Piece} {before : Piece} {rest : List Piece}

/-- A body is a word of its line. -/
theorem Requests.text (requests : Requests body pieces) :
    textOf pieces = if bodyWord body = [] then [] else ' ' :: bodyWord body := by
  cases requests with
  | none => rfl
  | some written => simp [bodyWord, mark, chars, Mark.char, written.text]

/-- A response is two words of its line. -/
theorem Responds.text (responds : Responds body pieces) :
    textOf pieces = ([if body.isSome then "returns".toList else [], bodyWord body].flatMap
      fun word => if word = [] then [] else ' ' :: word) := by
  cases responds with
  | none => rfl
  | some requests =>
    simp [requests.text, bodyWord, keyword, chars, Keyword.spelling]

/-- A body stands on one line. -/
theorem Requests.inLine (requests : Requests body pieces) : '\n' ∉ textOf pieces := by
  cases requests with
  | none => exact List.not_mem_nil
  | some written => simpa [mark, chars, Mark.char] using written.inLine

/-- A response stands on one line. -/
theorem Responds.inLine (responds : Responds body pieces) : '\n' ∉ textOf pieces := by
  cases responds with
  | none => exact List.not_mem_nil
  | some requests => simpa [keyword, chars, Keyword.spelling] using requests.inLine

/-- A body can be read behind what a blank does not continue. -/
theorem Requests.flows (requests : Requests body pieces) (spaced : before.Spaced)
    (behind : ∀ last : Piece, last.Spaced → Flows last rest) : Flows before (pieces ++ rest) := by
  cases requests with
  | none => exact behind before spaced
  | some written =>
    rw [List.cons_append, List.cons_append, List.append_assoc]
    exact .blank_of_spaced spaced (.mark .leftParen open_blank.wordlike
      (written.flows (open_mark _) fun last wordlike =>
        .mark .rightParen wordlike (behind _ (open_mark _).wordlike.spaced)))

/-- A response can be read behind what a blank does not continue. -/
theorem Responds.flows (responds : Responds body pieces) (spaced : before.Spaced)
    (behind : ∀ last : Piece, last.Spaced → Flows last rest) : Flows before (pieces ++ rest) := by
  cases responds with
  | none => exact behind before spaced
  | some requests =>
    exact .blank_of_spaced spaced (.keyword .returns open_blank
      (requests.flows (wordlike_keyword _).spaced behind))

/-- A response begins with its keyword, if there is one. -/
theorem Responds.firstKind (responds : Responds body pieces) (after : Kind) :
    Piece.firstKind (pieces ++ rest) after =
      if body = .none then Piece.firstKind rest after else .keyword .returns := by
  cases responds <;> rfl

end Bodies

namespace Rule

variable {place : Location} {before : Kind → Prop} {body : Option TypeExpr} {pieces : List Piece}

/-- A type between parentheses is read as it is written. -/
theorem reads_bodyType {type : TypeExpr} (written : type.Written pieces) :
    Reads place bodyType (mark .leftParen :: (pieces ++ [mark .rightParen])) (some type)
      Anything := by
  obtain ⟨kind, member, starts⟩ := written.starts
  refine (reads_expect (.mark .leftParen) _ _).bind_token ?_
  refine (reads_accepts_of_ne (.mark .rightParen)).bind_peek ?_ fun after _ => ?_
  · refine (reads_typeExpr written).bind ?_ fun _ _ => by simp
    exact (reads_expect (.mark .rightParen) _ _).map rfl
  · rw [starts]
    rintro rfl
    exact absurd member (by decide)

/-- The body of a request is read as it is written. -/
theorem reads_request (requests : Requests body pieces) :
    Reads place (bodyIf (sees (.mark .leftParen))) pieces body (· ≠ .mark .leftParen) := by
  cases requests with
  | none => exact (reads_sees_of_ne _).bind_peek (.pure none) fun _ next => next
  | some written =>
    refine (reads_sees _).bind_peek ?_ fun _ _ => rfl
    exact Reads.weaken (.blank (reads_bodyType written)) fun _ _ => trivial

/-- The body of a response is read as it is written. -/
theorem reads_response (responds : Responds body pieces) :
    Reads place (bodyIf (accepts (.keyword .returns))) pieces body (· ≠ .keyword .returns) := by
  cases responds with
  | none => exact (reads_accepts_of_ne _).bind_peek (.pure none) fun _ next => next
  | some requests =>
    cases requests with
    | some written =>
      refine .blank ((reads_accepts (.keyword .returns) _ _).bind_token (.blank ?_))
      exact (reads_bodyType written).weaken fun _ _ => trivial

/-- Nothing is refused without a reason. -/
theorem reads_refuseIf {condition : Prop} [Decidable condition] (holds : ¬condition)
    (token : Token) (cause : SyntaxError.Cause) :
    Reads place (refuseIf condition token cause) [] () Anything := by
  rw [refuseIf, if_neg holds]
  exact .pure ()

end Rule

/-- Every method is a name, and is written in small letters. -/
theorem isName_of_mem_httpMethods {method : String} (member : method ∈ httpMethods) :
    (Text.ofString method).IsName ∧ method.toLower = method := by
  obtain ⟨⟨c, rest, split, begins, noNumber, inside⟩, lower⟩ :
      (∃ c rest, method.toList = c :: rest ∧ Lexeme.beginsIdentifier c = true ∧
        Text.isDigit c = false ∧ rest.all Lexeme.inIdentifier = true) ∧
        method.toLower = method := by
    simp only [httpMethods, List.mem_cons, List.not_mem_nil, or_false] at member
    rcases member with rfl | rfl | rfl | rfl | rfl | rfl | rfl | rfl | rfl <;>
      exact ⟨⟨_, _, rfl, by decide +kernel, by decide +kernel, by decide +kernel⟩,
        by decide +kernel⟩
  refine ⟨⟨Text.isTextual_ofChars _, ?_⟩, lower⟩
  rw [Text.ofString, Text.chars_ofChars, split]
  exact .word begins noNumber (List.all_eq_true.mp inside)

/-- A path does not begin like a comment, and stands on one line. -/
theorem Text.IsLexeme.path {text : Text} (lexeme : text.IsLexeme .path) :
    (plain .path text).Spaced ∧ '\n' ∉ text.chars := by
  obtain ⟨-, spelled⟩ := lexeme
  refine ⟨show Lexeme.inPath ' ' = false by decide +kernel, ?_⟩
  generalize text.chars = slice at spelled
  generalize String.ofList slice = value at spelled
  generalize kind : Kind.path = found at spelled
  cases spelled with
  | @path rest inside _ =>
    rw [List.mem_cons, not_or]
    exact ⟨by decide, fun member => absurd (inside _ member) (by decide +kernel)⟩
  | word =>
    rcases wordKind_cases (String.ofList _) with identifier | ⟨keyword, isKeyword⟩
    · exact absurd (kind.trans identifier) (by decide)
    · exact absurd (kind.trans isKeyword) (by simp)
  | _ => exact nomatch kind

namespace Route

variable {route : Route} {requested responded : List Piece}

/-- The line of a route without the line feed. -/
def linePieces (route : Route) (requested responded : List Piece) : List Piece :=
  .name route.method :: .blank :: plain .path route.path ::
    (requested ++ (responded ++ aside .comment route.comment))

/-- The line of a route in pieces. -/
theorem WellFormed.writtenAs_line (wellFormed : route.WellFormed)
    (requests : Requests route.request requested) (responds : Responds route.response responded) :
    WrittenAs [route.line] (route.linePieces requested responded ++ [feed]) := by
  obtain ⟨method, member, same⟩ := wellFormed.method
  have isName : route.method.IsName := same ▸ (isName_of_mem_httpMethods member).1
  refine .line ?_ fun flows => ?_
  · rw [linePieces, Route.line, Line.ofWords_cons isName.spelled.ne_nil]
    simp only [textOf_cons, textOf_append, requests.text, responds.text,
      textOf_aside wellFormed.comment.textual, List.flatMap_cons, List.flatMap_nil,
      List.append_nil, List.append_assoc, if_neg wellFormed.path.spelled.ne_nil]
    rfl
  · have path : Meets .blank (plain .path route.path) := by
      refine ⟨fun c _ => rfl, fun _ second => ?_⟩
      exact absurd second wellFormed.noComment
    refine .name isName open_feed (.blank (wordlike_name _)
      ⟨wellFormed.path.spelled, path, ?_⟩)
    rw [List.append_eq, List.append_assoc, List.append_assoc]
    exact requests.flows wellFormed.path.path.1 fun last spaced =>
      responds.flows spaced fun last spaced =>
        .aside_comment wellFormed.comment spaced flows

/-- The annotations of a route as they are written. -/
def notePieces (route : Route) : List Piece :=
  route.doc.pieces ++ (serverPieces route.server ++
    [marker .handler, .blank, .name route.handler, feed])

/-- The annotations of a route, in the order in which they are written. -/
def notes (route : Route) : List RouteNote :=
  route.doc.notes ++ (route.server.toList.map .server ++ [.handler route.handler])

/-- The annotations of a route say what the route has. -/
theorem ofList_notes (route : Route) :
    RouteNotes.ofList route.notes = ⟨route.doc, route.server, route.handler⟩ := by
  unfold notes DocNote.notes RouteNotes.ofList
  by_cases absent : route.doc = {} <;> cases route.server <;> simp [absent, RouteNotes.add]

/-- The annotations of a route in pieces. -/
theorem WellFormed.writtenAs_notes (wellFormed : route.WellFormed) :
    WrittenAs (route.doc.lines ++ serverLines route.server ++
      [Line.ofWords ["@handler".toList, route.handler.chars]]) route.notePieces := by
  rw [List.append_assoc, notePieces]
  refine wellFormed.doc.writtenAs.append ((writtenAs_serverLines wellFormed.server).append ?_)
  change WrittenAs _ ([marker .handler, .blank, .name route.handler] ++ [feed])
  refine .line ?_ fun flows => ?_
  · rw [Line.ofWords_cons (by decide)]
    simp [marker, Piece.name, plain, chars, Marker.spelling, wellFormed.handler.spelled.ne_nil]
  · exact .marker .handler open_feed
      (.blank (wordlike_marker _) (.name wellFormed.handler open_blank (.feed flows)))

/-- The annotations of a route begin with a marker, and so do those below one of them. -/
theorem firstKind_notePieces (route : Route) (rest : List Piece) (after : Kind) :
    (∃ found, firstKind (serverPieces route.server ++
      marker .handler :: rest) after = .marker found) ∧
      ∃ found, firstKind (route.notePieces ++ rest) after = .marker found := by
  have server (rest : List Piece) : ∃ found,
      firstKind (serverPieces route.server ++ marker .handler :: rest) after = .marker found := by
    cases route.server <;> exact ⟨_, rfl⟩
  refine ⟨server rest, ?_⟩
  rw [notePieces, DocNote.pieces]
  split
  · exact ⟨.doc, rfl⟩
  · split
    · rw [List.nil_append, List.append_assoc]
      exact server _
    · exact ⟨.doc, rfl⟩

end Route

namespace Rule

variable {place : Location} (source : List Char) {route : Route} {requested responded : List Piece}

/-- The annotations of a route are read as they are written. -/
theorem reads_notes (wellFormed : route.WellFormed) :
    Reads place (many (routeNote? source)) route.notePieces route.notes
      (fun kind => NotSpacing kind ∧ ∀ found, kind ≠ .marker found) := by
  have all : Collects place (routeNote? source) route.notePieces route.notes NotSpacing := by
    refine (collects_doc source wellFormed.doc).append ?_ fun after _ => ?_
    · refine (collects_server source wellFormed.server).append ?_ fun _ _ =>
        notSpacing_marker .handler
      exact collects_handler source wellFormed.handler
    · obtain ⟨found, first⟩ := (route.firstKind_notePieces _ after).1
      rw [first]
      exact notSpacing_marker found
  have none (place : Location) : Reads place (routeNote? source) [] none
      (fun kind => NotSpacing kind ∧ ∀ found, kind ≠ .marker found) :=
    (reads_routeNote?_none source).weaken fun _ next => next.2
  have read := Reads.many (shrinks_routeNote? source) all (none _) fun _ next => next.1
  rwa [List.append_nil] at read

/-- The line of a route is read as it is written. -/
theorem reads_routeLine (wellFormed : route.WellFormed)
    (requests : Requests route.request requested) (responds : Responds route.response responded) :
    Reads place (routeLine ⟨route.doc, route.server, route.handler⟩ route.docs)
      (route.linePieces requested responded ++ [feed]) route Anything := by
  obtain ⟨method, member, same⟩ := wellFormed.method
  obtain ⟨isName, lower⟩ := isName_of_mem_httpMethods member
  have value : String.ofList route.method.chars = method := by
    rw [same, Text.ofString, Text.chars_ofChars, String.ofList_toList]
  have known : ¬httpMethods.contains (String.ofList route.method.chars).toLower = false := by
    rw [value, lower]
    simpa using member
  have present : route.handler ≠ [] := by
    intro absent
    exact wellFormed.handler.spelled.ne_nil (by rw [absent]; rfl)
  have named : ¬RouteNotes.handlerName ⟨route.doc, route.server, route.handler⟩ = [] := by
    rw [RouteNotes.handlerName, if_neg present]
    exact present
  have sameLine : ((((((place.after (Piece.name route.method).chars).next ' ').after
      (plain .path route.path).chars).after (textOf requested)).after (textOf responded)).line) =
        place.line := by
    rw [line_after_inLine responds.inLine, line_after_inLine requests.inLine]
    refine (line_after_inLine wellFormed.path.path.2).trans ?_
    exact line_after_inLine (same ▸ isName).inLine
  rw [Route.linePieces]
  simp only [List.cons_append, List.append_assoc]
  refine (reads_name route.method).bind_token ?_
  refine (reads_refuseIf known _ _).bind_peek (.blank ?_) fun _ _ => trivial
  refine (reads_expect .path _ _).bind_token ?_
  refine (reads_request requests).bind ?_ fun after _ => ?_
  · refine (reads_response responds).bind ?_ fun after _ => ?_
    · refine (reads_trailingComment wellFormed.comment.textual fun _ => sameLine).bind ?_
        fun _ _ => rfl
      refine reads_lineEnd.bind_token ?_
      refine (reads_refuseIf named _ _).bind_peek ?_ fun _ _ => trivial
      have answer : ({
          handler := RouteNotes.handlerName ⟨route.doc, route.server, route.handler⟩
          method := Text.ofString (String.ofList route.method.chars).toLower
          path := Text.ofString (String.ofList route.path.chars)
          request := route.request, response := route.response
          doc := route.doc, docs := route.docs, comment := route.comment
          server := route.server } : Route) = route := by
        rw [value, lower, ← same, Text.ofString, String.toList_ofList,
          Text.ofChars_chars wellFormed.path.textual, RouteNotes.handlerName, if_neg present]
      rw [answer]
      exact .pure route
    · rw [firstKind_aside]
      split <;> simp
  · rw [responds.firstKind, firstKind_aside]
    split
    · split <;> simp
    · simp

/-- The lines of a route list it. -/
theorem lists_route {service : String} (wellFormed : route.WellFormed) :
    Lists (route? source service) route.lines [route] := by
  obtain ⟨requested, requests⟩ := exists_requests wellFormed.request
  obtain ⟨responded, responds⟩ := exists_responds wellFormed.response
  have written := (writtenAs_ofDocs wellFormed.docs).append
    (wellFormed.writtenAs_notes.append (wellFormed.writtenAs_line requests responds))
  refine ⟨_, by simpa [Route.lines] using written, fun place => .single ?_⟩
  rw [route?_eq]
  refine Reads.untilClosed (reads_docs fun doc member => (wellFormed.docs doc member).textual) ?_
    fun after _ => ?_
  · rw [route_eq]
    refine (reads_notes source wellFormed).bind ?_ fun _ _ => ?_
    · rw [route.ofList_notes]
      exact reads_routeLine wellFormed requests responds
    · change NotSpacing (Scan.wordKind (String.ofList route.method.chars)) ∧
        ∀ found, Scan.wordKind (String.ofList route.method.chars) ≠ .marker found
      rcases Text.wordKind_cases (String.ofList route.method.chars) with kind | ⟨keyword, kind⟩ <;>
        simp [NotSpacing, kind]
  · obtain ⟨found, first⟩ := (route.firstKind_notePieces
      (route.linePieces requested responded ++ [feed]) after).2
    rw [first]
    exact ⟨notSpacing_marker found, by simp, by simp⟩

/-- The lines of routes list them. -/
theorem lists_routes (service : String) {routes : List Route}
    (wellFormed : ∀ route ∈ routes, route.WellFormed) :
    Lists (route? source service) (routes.flatMap Route.lines) routes := by
  have lists : Lists (route? source service) (routes.flatMap Route.lines) (routes.map id) :=
    .flatMap fun route member => lists_route source (wellFormed route member)
  rwa [List.map_id] at lists

/-- The annotation above a group is read as it is written. -/
theorem reads_groupServer {server : Option Properties}
    (wellFormed : ∀ properties ∈ server, PropertiesWellFormed properties) :
    Reads place (groupServer source) (serverPieces server) server (· = .keyword .service) := by
  cases server with
  | none =>
    refine (reads_accepts_of_ne (.marker .server)).bind_peek (.pure none) fun kind next => ?_
    subst next
    exact nofun
  | some properties =>
    refine (reads_accepts (.marker .server) _ _).bind_token (.blank ?_)
    refine Reads.bind (reads_propertyBlock source (wellFormed properties rfl)) ?_ fun _ _ => trivial
    refine Reads.weaken (reads_skipSpacing.map rfl) fun kind next => ?_
    rw [next]
    exact ⟨nofun, nofun⟩

/-- The lines of a group of routes list it. -/
theorem lists_group {group : RouteGroup} {service : Text} (isName : service.IsName)
    (wellFormed : group.WellFormed) :
    Lists (declaration? source) (group.lines service) [.group service group] := by
  obtain ⟨pieces, written, collects⟩ :=
    lists_routes source (String.ofList service.chars) wellFormed.routes
  have head : WrittenAs [Line.ofWords ["service".toList, service.chars, ['\x7b']]]
      ([keyword .service, .blank, .name service, .blank, mark .leftBrace] ++ [feed]) := by
    refine .line ?_ fun flows => ?_
    · rw [Line.ofWords_cons (by decide)]
      simp [keyword, Piece.name, plain, mark, chars, Keyword.spelling, Mark.char,
        isName.spelled.ne_nil]
    · exact .keyword .service open_feed (.blank (wordlike_keyword _) (.name isName open_blank
        (.blank (wordlike_name _) (.mark .leftBrace open_blank.wordlike (.feed flows)))))
  have last : WrittenAs [['\x7d']] ([mark .rightBrace] ++ [feed]) :=
    .line rfl fun flows => .mark .rightBrace open_feed.wordlike (.feed flows)
  refine ⟨_, (((writtenAs_serverLines wellFormed.server).append head).append written).append last,
    fun place => ?_⟩
  have read (place : Location) : Reads place (serviceGroup source)
      (serverPieces group.server ++ (keyword .service :: .blank :: .name service :: .blank ::
        mark .leftBrace :: feed :: (pieces ++ [mark .rightBrace]))) (service, group) Anything := by
    refine (reads_groupServer source wellFormed.server).bind ?_ fun _ _ => rfl
    refine (reads_expect (.keyword .service) _ _).bind_token (.blank ?_)
    refine (reads_name service).bind_token (.blank ?_)
    refine (reads_expect (.mark .leftBrace) _ _).bind_token ?_
    have shrinks := shrinks_route? source (String.ofList service.chars)
    simp only [route?_eq] at collects shrinks ⊢
    refine (Reads.many_untilClosed skipsFeeds_docs reads_docs_nil shrinks collects).map ?_
    rw [text_plain isName.textual]
  have collected : Collects place (declaration? source)
      ((serverPieces group.server ++ (keyword .service :: .blank :: .name service :: .blank ::
        mark .leftBrace :: feed :: (pieces ++ [mark .rightBrace]))) ++ [feed])
      [.group service group] Anything := by
    refine .line (skipsFeeds_declaration? source) ?_
    refine Reads.weaken ?_ fun _ _ => trivial
    have noDocs : AreDocs [] := by simp [AreDocs]
    -- the marker of the annotation or the word for a service tells that this is a group
    obtain ⟨kind, begins, noSpacing, declares⟩ : ∃ kind,
        (∃ slice value rest, serverPieces group.server ++ (keyword .service :: .blank ::
          .name service :: .blank :: mark .leftBrace :: feed :: (pieces ++ [mark .rightBrace])) =
            .token kind slice value :: rest) ∧ NotSpacing kind ∧
        declarationOf source [] kind =
          some (serviceGroup source >>= fun read => pure (.group read.1 read.2)) := by
      cases group.server with
      | none => exact ⟨_, ⟨_, _, _, rfl⟩, notSpacing_keyword .service, rfl⟩
      | some properties => exact ⟨_, ⟨_, _, _, rfl⟩, notSpacing_marker .server, rfl⟩
    exact reads_declaration? noDocs begins noSpacing declares fun place => (read place).map rfl
  simpa using collected

end Rule

end ApiDescription
