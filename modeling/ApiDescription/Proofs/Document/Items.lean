import ApiDescription.Proofs.Document.Docs
import ApiDescription.Proofs.Document.TypeNames

/-!
# Items as they are read

What holds of every item of a description, because nothing else is ever read. A type has a
name at every level, and where it is built from no others the name says what it is. A member
without a name is embedded. A route has a handler, one of the methods, and a path that is no
comment.

In particular the types of a description are classified: at every depth, what a type without
parts is follows from its name.
-/

namespace ApiDescription

namespace Text.IsLexeme

variable {kind : Kind} {text : Text}

/-- A lexeme has characters. -/
theorem ne_nil (lexeme : text.IsLexeme kind) : text ≠ [] := by
  rintro rfl
  exact lexeme.spelled.ne_nil rfl

/-- A word is not the empty interface, which has braces. -/
theorem ne_emptyInterface (lexeme : text.IsLexeme kind)
    (isWord : kind = .identifier ∨ ∃ keyword, kind = .keyword keyword) :
    text ≠ TypeExpr.emptyInterface := by
  have spelled : Token.Spelled ⟨kind, String.ofList text.chars, .start, 0⟩ :=
    ⟨_, lexeme.spelled⟩
  rw [← Rule.text_plain lexeme.textual kind .start 0]
  apply spelled.ne_emptyInterface
  rcases isWord with rfl | ⟨keyword, rfl⟩ <;> rfl

end Text.IsLexeme

/-- The text of a token that is a name is one. -/
theorem Token.Spelled.isName {token : Token} (spelled : token.Spelled)
    (isName : token.isName = true) : token.text.IsName := by
  obtain ⟨slice, spelled⟩ := spelled
  have text : token.text = Text.ofChars slice := by
    rw [Token.text_of_spells spelled, Lexeme.valueOf_of_isName isName]
  rw [text]
  refine ⟨Text.isTextual_ofChars _, ?_⟩
  rw [Text.chars_ofChars]
  exact spelled.word_of_isName isName

namespace TypeExpr

/-- Whether a type is built from no others. -/
def isLeaf : TypeExpr → Bool
  | .primitive _ | .named _ | .interface _ => true
  | .array .. | .map .. | .pointer .. => false

/-- A type and, level by level, the types it is built from. Of the key of a map there is only
the name. -/
def levels : TypeExpr → List TypeExpr
  | .primitive name => [.primitive name]
  | .named name => [.named name]
  | .interface name => [.interface name]
  | .array name value => .array name value :: value.levels
  | .map name key value => .map name key value :: value.levels
  | .pointer name target => .pointer name target :: target.levels

/-- A type that has a name, which says what the type is if it is built from no others. -/
structure Fits (type : TypeExpr) : Prop where
  name : type.name ≠ []
  key : ∀ name key value, type = .map name key value → key ≠ []
  primitive : type.isLeaf = true →
    (type = .primitive type.name ↔ type.name ∈ primitiveNames.map Text.ofString)
  interface : type.isLeaf = true →
    (type = .interface type.name ↔
      type.name = emptyInterface ∨ type.name = Text.ofString "any")
  named : type.isLeaf = true →
    (type = .named type.name ↔ type.name ∉ primitiveNames.map Text.ofString ∧
      type.name ≠ emptyInterface ∧ type.name ≠ Text.ofString "any")

/-- A type that fits its name at every level. -/
def Sound (type : TypeExpr) : Prop := ∀ level ∈ type.levels, level.Fits

/-- The empty interface is no builtin type, and neither is any value. -/
theorem not_primitive : emptyInterface ∉ primitiveNames.map Text.ofString ∧
    Text.ofString "any" ∉ primitiveNames.map Text.ofString := by
  decide +kernel

/-- A text with a dot is not the empty interface. -/
theorem ne_emptyInterface_of_dot (first second : Text) :
    first ++ Text.ofString "." ++ second ≠ emptyInterface := by
  intro same
  have dot : CodePoint.char '.' ∈ emptyInterface := by
    rw [← same]
    simp [Text.ofString, Text.ofChars]
  exact absurd dot (by decide)

/-- The type of any value fits its name. -/
theorem fits_interface {word : Text}
    (known : word = emptyInterface ∨ word = Text.ofString "any") :
    (TypeExpr.interface word).Fits := by
  have noPrimitive : word ∉ primitiveNames.map Text.ofString := by
    rcases known with rfl | rfl
    · exact not_primitive.1
    · exact not_primitive.2
  have named : word ≠ [] := by
    rcases known with rfl | rfl <;> decide
  refine ⟨named, nofun, fun _ => ?_, fun _ => ?_, fun _ => ?_⟩
  · exact iff_of_false nofun noPrimitive
  · exact iff_of_true rfl known
  · exact iff_of_false nofun fun apart => known.elim apart.2.1 apart.2.2

/-- The type a bare word names fits the word. -/
theorem sound_ofName {word : Text} (named : word ≠ []) (apart : word ≠ emptyInterface) :
    (ofName word).Sound := by
  unfold ofName
  split
  · next any => exact List.forall_mem_singleton.mpr (fits_interface (.inr any))
  next noAny =>
  split
  · next builtin =>
    have isPrimitive : word ∈ primitiveNames.map Text.ofString := by simpa using builtin
    refine List.forall_mem_singleton.mpr ⟨named, nofun, fun _ => ?_, fun _ => ?_, fun _ => ?_⟩
    · exact iff_of_true rfl isPrimitive
    · exact iff_of_false nofun fun known => known.elim apart noAny
    · exact iff_of_false nofun fun known => known.1 isPrimitive
  · next declared =>
    have noPrimitive : word ∉ primitiveNames.map Text.ofString := by simpa using declared
    refine List.forall_mem_singleton.mpr ⟨named, nofun, fun _ => ?_, fun _ => ?_, fun _ => ?_⟩
    · exact iff_of_false nofun noPrimitive
    · exact iff_of_false nofun fun known => known.elim apart noAny
    · exact iff_of_true rfl ⟨noPrimitive, apart, noAny⟩

/-- A type that is built from others fits its name if it has one. -/
theorem fits_of_not_isLeaf {type : TypeExpr} (composite : type.isLeaf = false)
    (named : type.name ≠ []) (key : ∀ name key value, type = .map name key value → key ≠ []) :
    type.Fits := by
  refine ⟨named, key, ?_, ?_, ?_⟩ <;> simp [composite]

/-- A type that can be written fits its name at every level. -/
theorem Written.sound {type : TypeExpr} {pieces : List Piece} (written : type.Written pieces) :
    type.Sound := by
  induction written with
  | name lexeme => exact sound_ofName lexeme.ne_nil (lexeme.ne_emptyInterface (.inl rfl))
  | @qualified first second lexeme secondLexeme =>
    refine sound_ofName ?_ (ne_emptyInterface_of_dot first second)
    simp [lexeme.ne_nil]
  | interface => exact List.forall_mem_singleton.mpr (fits_interface (.inl rfl))
  | pointer written inductionHypothesis =>
    have named := (Written.pointer written).name_ne_nil
    exact List.forall_mem_cons.mpr ⟨fits_of_not_isLeaf rfl named nofun, inductionHypothesis⟩
  | slice written inductionHypothesis =>
    have named := (Written.slice written).name_ne_nil
    exact List.forall_mem_cons.mpr ⟨fits_of_not_isLeaf rfl named nofun, inductionHypothesis⟩
  | array lexeme written inductionHypothesis =>
    have named := (Written.array lexeme written).name_ne_nil
    exact List.forall_mem_cons.mpr ⟨fits_of_not_isLeaf rfl named nofun, inductionHypothesis⟩
  | map keyWritten written _ inductionHypothesis =>
    have named := (Written.map keyWritten written).name_ne_nil
    refine List.forall_mem_cons.mpr ⟨fits_of_not_isLeaf rfl named ?_, inductionHypothesis⟩
    intro name key value same
    cases same
    exact keyWritten.name_ne_nil

end TypeExpr

/-- A member that is embedded if it has no name, and only then. Such a member is of no array and no
map. -/
structure Member.Sound (parts : Member) : Prop where
  type : parts.type.Sound
  embedded : parts.embedded = true ↔ parts.name = []
  single : parts.name = [] → (∀ name value, parts.type ≠ .array name value) ∧
    ∀ name key value, parts.type ≠ .map name key value
  tag : parts.tag = [] ∨ parts.tag.IsTag

/-- An annotation that holds properties or a text, and not both. -/
def DocNote.IsSingle (note : DocNote) : Prop := note.properties = none ∨ note.text = []

/-- The same of an annotation of any kind. -/
def RouteNote.IsSingle : RouteNote → Prop
  | .doc note => note.IsSingle
  | _ => True

/-- A route with a handler, one of the methods in small letters, a path, and types for its bodies
that fit their names. -/
structure Route.Sound (route : Route) : Prop where
  handler : route.handler ≠ []
  method : ∃ method ∈ httpMethods, method.toLower = method ∧ route.method = Text.ofString method
  path : route.path.IsPath
  doc : route.doc.IsSingle
  request : ∀ type ∈ route.request, type.Sound
  response : ∀ type ∈ route.response, type.Sound

/-- A type declaration that gives a name, to a type that fits its own if it is another name. -/
structure TypeDecl.Sound (decl : TypeDecl) : Prop where
  name : decl.name ≠ []
  target : ∀ name target docs, decl = .alias name (some target) docs → target.Sound

/-- What holds of an item of its kind. -/
def Item.Sound : Item → Prop
  | .type decl => decl.Sound
  | .member parts => parts.Sound
  | .route parts => parts.Sound

namespace Member.Headed

variable {name : Text} {type : TypeExpr} {embedded : Bool} {pieces : List Piece}

/-- The type of a member fits its name. -/
theorem sound (headed : Headed name type embedded pieces) : type.Sound := by
  have apart {word : Text} (isName : word.IsName) : word ≠ TypeExpr.emptyInterface :=
    isName.ne_emptyInterface (Text.wordKind_cases _)
  cases headed with
  | named _ written => exact written.sound
  | pointer written => exact (TypeExpr.Written.pointer written).sound
  | embedded isName => exact TypeExpr.sound_ofName isName.ne_nil (apart isName)
  | @qualified first second isName _ =>
    refine TypeExpr.sound_ofName ?_ (TypeExpr.ne_emptyInterface_of_dot first second)
    simp [isName.ne_nil]

/-- A member is embedded if it has no name. -/
theorem embedded_iff (headed : Headed name type embedded pieces) :
    embedded = true ↔ name = [] := by
  cases headed with
  | named isName _ => exact iff_of_false nofun isName.ne_nil
  | pointer | embedded | qualified => exact iff_of_true rfl rfl

/-- An embedded member is of no array and no map. -/
theorem single (headed : Headed name type embedded pieces) (unnamed : name = []) :
    (∀ name value, type ≠ .array name value) ∧ ∀ name key value, type ≠ .map name key value := by
  have bare (word : Text) : (∀ name value, TypeExpr.ofName word ≠ .array name value) ∧
      ∀ name key value, TypeExpr.ofName word ≠ .map name key value := by
    unfold TypeExpr.ofName
    split
    · exact ⟨nofun, nofun⟩
    · split <;> exact ⟨nofun, nofun⟩
  cases headed with
  | named isName _ => exact absurd unnamed isName.ne_nil
  | pointer _ => exact ⟨nofun, nofun⟩
  | embedded | qualified => exact bare _

end Member.Headed

namespace Rule

/-- A type that is read from tokens of a text can be written. -/
theorem answers_writtenWithin (depth : Nat) :
    Answers Token.Spelled (fun type => ∃ pieces, type.Written pieces) (typeWithin depth) := by
  intro stream type next ended known read
  obtain ⟨_, -, -, -, written⟩ := takes_written depth stream type next ended known read
  exact written

theorem answers_written :
    Answers Token.Spelled (fun type => ∃ pieces, type.Written pieces) typeExpr :=
  fun stream => answers_writtenWithin _ stream

/-- A type that is read from tokens of a text fits its name at every level. -/
theorem answers_sound : Answers Token.Spelled TypeExpr.Sound typeExpr :=
  answers_written.weaken fun _ written => written.choose_spec.sound

/-- Behind a star stands what a pointer points to. -/
theorem exists_target_of_star {stream next : Stream} {type : TypeExpr}
    (star : stream.current.kind = .mark .star) (read : typeExpr stream = .ok type next) :
    ∃ target, typeWithin (lineLength stream) stream.next = .ok target next ∧
      type = .pointerTo target := by
  rw [typeExpr, typeWithin_succ_apply] at read
  simp only [typeBehind, star] at read
  obtain ⟨target, _, readTarget, answered⟩ := bind_eq_ok_iff.mp read
  cases answered
  exact ⟨target, readTarget, rfl⟩

/-- A word and what may stand behind it are an embedded type. -/
theorem answers_qualified {first : Text} (isName : first.IsName) : Answers Token.Spelled
    (fun word => ∃ pieces, Member.Headed [] (.ofName word) true pieces) (qualifiedName first) := by
  intro stream word next ended known read
  obtain ⟨_, -, -, ⟨dot, second, -, -, isIdentifier, -, spelled, rfl⟩ | ⟨-, rfl⟩⟩ :=
    takes_qualifiedName first stream word next ended known read
  · have lexeme := spelled.isLexeme (.inl isIdentifier)
    rw [isIdentifier] at lexeme
    exact ⟨_, .qualified isName lexeme⟩
  · exact ⟨_, .embedded isName⟩

/-- What a member line begins with is a name and a type, or an embedded type. -/
theorem answers_headed : Answers Token.Spelled
    (fun head => ∃ pieces, Member.Headed head.1 head.2.1 head.2.2 pieces) memberHead := by
  intro stream head next ended known read
  rw [memberHead, bind_apply, sees_apply] at read
  by_cases star : stream.current.kind = .mark .star
  · simp only [star, decide_true, if_true] at read
    obtain ⟨type, _, readType, answered⟩ := bind_eq_ok_iff.mp read
    cases answered
    obtain ⟨target, readTarget, rfl⟩ := exists_target_of_star star readType
    obtain ⟨ahead, nextEnded⟩ := ahead_eq_current_cons ended (by simp [star])
    obtain ⟨pieces, written⟩ := answers_writtenWithin _ stream.next target next nextEnded
      (fun token member => known token (by rw [ahead]; exact List.mem_cons_of_mem _ member))
      readTarget
    exact ⟨_, .pointer written⟩
  · simp only [star, decide_false, if_false, Bool.false_eq_true] at read
    refine Answers.bind (Q := fun head => ∃ pieces, Member.Headed head.1 head.2.1 head.2.2 pieces)
      .expectName consumes_expectName.forward ?_ stream head next ended known read
    rintro name ⟨spelled, isName⟩
    have given := spelled.isName isName
    refine .bind_right (.sees _) fun _ => .ite ?_ (.bind_right (.seesAny _) fun _ => .ite ?_ ?_)
    · exact (answers_qualified given).map (forward_qualifiedName _) fun _ headed => headed
    · exact answers_written.map consumes_typeExpr.forward fun _ ⟨pieces, written⟩ =>
        ⟨_, .named given written⟩
    · exact .pure ⟨_, .embedded given⟩

/-- A member that is read is embedded if it has no name. -/
theorem answers_soundMember (docs : List Text) :
    Answers Token.Spelled Member.Sound (member docs) := by
  rw [member_eq]
  refine .bind_right .current fun _ => answers_headed.bind consumes_memberHead.forward
    fun head headed => ?_
  obtain ⟨pieces, headed⟩ := headed
  have tags : Answers Token.Spelled (fun tag : Text => tag = [] ∨ tag.IsTag) (textIf .rawText) := by
    intro stream tag next ended known read
    obtain ⟨_, -, -, ⟨token, -, rfl, isRaw, spelled⟩ | ⟨-, rfl⟩⟩ :=
      Takes.textIf (by decide) stream tag next ended known read
    · exact .inr (spelled.isTag isRaw)
    · exact .inl rfl
  refine tags.bind (forward_textIf _) fun tag isTag => .bind_right (forward_trailingComment _)
    fun _ => .bind_right forward_lineEnd fun _ => .pure ?_
  exact ⟨headed.sound, headed.embedded_iff, headed.single, isTag⟩

/-- A type declaration that is read gives a name. -/
theorem answers_soundDecl (docs : List Text) :
    Answers Token.Spelled TypeDecl.Sound (typeBody docs) := by
  have names : Answers Token.Spelled (fun name : Token => name.text ≠ []) expectName :=
    Answers.expectName.weaken fun _ known => (known.1.isName known.2).ne_nil
  refine names.bind consumes_expectName.forward fun name named => ?_
  have struct : Answers Token.Spelled TypeDecl.Sound
      (members >>= fun parts => Pure.pure (.struct name.text parts docs)) :=
    .bind_right forward_members fun _ => .pure ⟨named, nofun⟩
  refine .bind_right (forward_accepts _) fun _ =>
    .ite (.bind_right (forward_expect _) fun _ => struct) <|
      .bind_right (forward_accepts _) fun _ => .ite struct <| .bind_right (forward_accepts _)
        fun _ => answers_sound.bind consumes_typeExpr.forward fun type sound =>
          .bind_right forward_lineEnd fun _ => .pure ⟨named, ?_⟩
  intro name target docs same
  cases same
  exact sound

/-- Behind a marker stands an annotation with properties or a text. -/
theorem answers_noteBehind (source : List Char) (found : Marker) :
    Answers Token.Spelled RouteNote.IsSingle (noteBehind source found) := by
  cases found with
  | doc =>
    exact .bind_right (.sees _) fun _ => .ite
      (.bind_right .advance fun _ => .pure (.inl rfl))
      (.bind_right (consumes_propertyBlock source).forward fun _ => .pure (.inr rfl))
  | server => exact .bind_right (consumes_propertyBlock source).forward fun _ => .pure trivial
  | handler => exact .bind_right consumes_expectName.forward fun _ => .pure trivial

/-- The annotations of a route hold properties or a text. -/
theorem answers_notes (source : List Char) :
    Answers Token.Spelled (fun notes => ∀ note ∈ notes, note.IsSingle)
      (many (routeNote? source)) := by
  refine .many (forward_routeNote? source) (shrinks_routeNote? source) ?_
  intro stream found next ended known read
  rw [routeNote?_apply] at read
  split at read
  · next marker _ =>
    have behind : Answers Token.Spelled (fun found => ∀ note ∈ found, note.IsSingle)
        (advance >>= fun _ => noteBehind source marker >>= fun note => skipSpacing >>= fun _ =>
          Pure.pure (some note)) := by
      refine .bind_right .advance fun _ => (answers_noteBehind source marker).bind
        (forward_noteBehind source marker) fun note single =>
          .bind_right forward_skipSpacing fun _ => .pure ?_
      rintro note ⟨⟩
      exact single
    exact behind stream found next ended known read
  · cases read
    exact nofun

end Rule

/-- The last `@doc` above a route holds properties or a text if each of them does. -/
theorem RouteNotes.isSingle_ofList {notes : List RouteNote}
    (single : ∀ note ∈ notes, note.IsSingle) : (ofList notes).doc.IsSingle := by
  have later (above : RouteNotes) (start : above.doc.IsSingle) :
      (notes.foldl add above).doc.IsSingle := by
    induction notes generalizing above with
    | nil => exact start
    | cons note notes inductionHypothesis =>
      rw [List.forall_mem_cons] at single
      refine inductionHypothesis single.2 _ ?_
      cases note with
      | doc note => exact single.1
      | server | handler => exact start
  exact later {} (.inl rfl)

namespace Rule

/-- The line of a route gives its method and its path. A name stands in front of the path, so that
two slashes there would be a comment. -/
theorem takes_routeLine {notes : RouteNotes} (single : notes.doc.IsSingle) (docs : List Text) :
    Takes Token.Spelled (fun route used => used.IsChain Token.Apart → route.Sound)
      (routeLine notes docs) := by
  have body {found : Rule Bool} (forward : Forward found) : Takes Token.Spelled
      (fun body _ => ∀ type ∈ body, type.Sound) (bodyIf found) :=
    .of_answers (forward_bodyIf forward) (answers_bodyIf answers_sound forward)
  refine Takes.expectName.bind fun method _ ⟨taken, isName, _⟩ => ?_
  refine (Takes.refuseIf _ _).bind fun _ _ ⟨nothing, known⟩ => ?_
  refine (Takes.expect (by decide)).bind fun path _ ⟨takenPath, isPath, spelled⟩ => ?_
  refine (body (.sees _)).bind fun request _ request => ?_
  refine (body (forward_accepts _)).bind fun response _ response => ?_
  refine (Takes.of_forward (forward_trailingComment _)).bind fun comment _ _ => ?_
  refine (Takes.of_forward forward_lineEnd).bind fun _ _ _ => ?_
  refine (Takes.refuseIf _ _).bind fun _ _ ⟨_, handled⟩ => .pure fun chain => ?_
  subst taken nothing takenPath
  have apart : method.Apart path := (List.isChain_cons_cons.mp chain).1
  have isMethod : method.value.toLower ∈ httpMethods := by simpa using known
  have small : ∀ method ∈ httpMethods, method.toLower = method := by decide +kernel
  exact ⟨handled, ⟨_, isMethod, small _ isMethod, rfl⟩, spelled.isPath isPath (apart isName isPath),
    single, request, response⟩

/-- A route that is read is sound. -/
theorem takes_route (source : List Char) (docs : List Text) :
    Takes Token.Spelled (fun route used => used.IsChain Token.Apart → route.Sound)
      (route source docs) := by
  rw [route_eq]
  have notes := Takes.of_answers ((forward_routeNote? source).many (shrinks_routeNote? source))
    (answers_notes source)
  refine notes.bind fun notes _ single => ?_
  refine (takes_routeLine (RouteNotes.isSingle_ofList single) docs).weaken (fun _ known => known) ?_
  exact fun route used _ sound chain => sound chain.right_of_append

end Rule

/-- What is read at the head of a stream over tokens of a text is sound. -/
theorem Item.ReadFrom.sound {source : List Char} {stream : Stream} {item : Item}
    (read : item.ReadFrom source stream) (ended : stream.Ended)
    (spelled : ∀ token ∈ stream.ahead, token.Spelled) (apart : stream.ahead.IsChain Token.Apart) :
    item.Sound := by
  cases item with
  | type decl =>
    rcases read with ⟨next, read⟩ | ⟨-, next, read⟩
    · exact Rule.answers_soundDecl _ stream decl next ended spelled read
    · rw [← Stream.skip_one] at read
      exact Rule.answers_soundDecl _ _ decl next (ended.skip 1)
        (fun token member => spelled token (List.mem_of_mem_drop member)) read
  | member parts =>
    obtain ⟨next, read⟩ := read
    exact Rule.answers_soundMember _ stream parts next ended spelled read
  | route parts =>
    obtain ⟨next, read⟩ := read
    obtain ⟨used, split, -, sound⟩ :=
      Rule.takes_route source _ stream parts next ended spelled read
    rw [split] at apart
    exact sound apart.left_of_append

/-- An item whose docs begin as comments do, as does the comment behind it if there is one. -/
structure Item.Remarked (item : Item) : Prop where
  docs : ∀ doc ∈ item.docs, doc.BeginsComment
  comment : item.comment = [] ∨ item.comment.BeginsComment

/-- An item that is read between the tokens of a text is sound, and so are its comments. -/
theorem Item.Documented.sound {text : List Char} {tokens : List Token} {item : Item}
    {remarks : Remarks} (documented : item.Documented text tokens remarks)
    (spelled : ∀ token ∈ tokens, token.Spelled) (apart : tokens.IsChain Token.Apart)
    (attached : ∀ token ∈ remarks.comments, token ∈ tokens) : item.Sound ∧ item.Remarked := by
  obtain ⟨stream, later, ended, -, behind, read⟩ := documented.read
  have comments (token : Token) (isAttached : token ∈ remarks.comments) :
      token.text.BeginsComment :=
    (spelled token (attached token isAttached)).beginsComment
      (documented.areComments token isAttached)
  refine ⟨read.sound ended (fun token member => spelled token (behind.subset member))
    (apart.suffix behind), ?_, ?_⟩
  · rw [documented.docs]
    intro doc isDoc
    obtain ⟨token, member, rfl⟩ := List.mem_map.mp isDoc
    exact comments token (List.mem_append_left _ member)
  · rw [documented.comment]
    cases trailing : remarks.trailing with
    | none => exact .inl rfl
    | some token => exact .inr (comments token (by simp [Remarks.comments, trailing]))

/-- Every item of a document that is read is sound, and so are its comments. -/
theorem Document.sound_items {file : Path} {text : List Char} {document : Document}
    (read : parse ⟨file, text⟩ = .ok document) :
    ∀ item ∈ document.items, item.Sound ∧ item.Remarked := by
  obtain ⟨tokens, finish, declarations, left, lexed, ends, -, readAll, -, rfl⟩ :=
    exists_declarations_of_parse read
  obtain ⟨spelled, apart⟩ := spelled_of_tokenize lexed
  have ended : Stream.Ended ⟨tokens, finish, 0⟩ := ends
  have start : Between [] ⟨tokens, finish, 0⟩ := .inl (by simp)
  obtain ⟨taken, attached, split, sublist, documented⟩ :=
    Rule.documents_declarations [] _ declarations left ended start readAll
  have inText : (attached.flatMap Remarks.comments).Sublist tokens := by
    rw [show tokens = taken ++ left.ahead from split]
    exact sublist.trans (List.sublist_append_left _ _)
  intro item member
  rw [(items_ofDeclarations (some file) declarations).mem_iff] at member
  obtain ⟨index, inside, rfl⟩ := List.getElem_of_mem member
  have bound : index < attached.length := documented.length_eq ▸ inside
  refine (documented.get inside bound).sound spelled apart fun token isAttached => ?_
  exact inText.subset (List.mem_flatMap.mpr ⟨_, List.getElem_mem bound, isAttached⟩)

namespace TypeExpr

/-- A type in which, at every depth, what a type without parts is follows from its name. -/
def Classified : TypeExpr → Prop
  | .primitive name => name ∈ primitiveNames.map Text.ofString
  | .interface name => name = emptyInterface ∨ name = Text.ofString "any"
  | .named name =>
    name ∉ primitiveNames.map Text.ofString ∧ name ≠ emptyInterface ∧ name ≠ Text.ofString "any"
  | .array _ value => value.Classified
  | .map _ _ value => value.Classified
  | .pointer _ target => target.Classified

/-- A type that fits its name at every level is classified. -/
theorem Sound.classified {type : TypeExpr} (sound : type.Sound) : type.Classified := by
  induction type with
  | primitive name => exact ((sound _ (.head _)).primitive rfl).mp rfl
  | named name => exact ((sound _ (.head _)).named rfl).mp rfl
  | interface name => exact ((sound _ (.head _)).interface rfl).mp rfl
  | array _ _ inductionHypothesis | map _ _ _ inductionHypothesis
  | pointer _ _ inductionHypothesis =>
    exact inductionHypothesis fun level member => sound level (.tail _ member)

end TypeExpr

/-- A declaration all of whose types are classified. -/
def TypeDecl.Classified : TypeDecl → Prop
  | .struct _ members _ => ∀ member ∈ members, member.type.Classified
  | .alias _ target _ => ∀ type ∈ target, type.Classified

/-- A route the types of whose bodies are classified. -/
structure Route.Classified (route : Route) : Prop where
  request : ∀ type ∈ route.request, type.Classified
  response : ∀ type ∈ route.response, type.Classified

/-- A document in which the kind of every type without parts follows from its name. -/
structure Document.Classified (document : Document) : Prop where
  types : ∀ decl ∈ document.types, decl.Classified
  routes : ∀ group ∈ document.service.groups, ∀ route ∈ group.routes, route.Classified

/-- A document with sound items is classified. -/
theorem Document.classified_of_items {document : Document}
    (sound : ∀ item ∈ document.items, item.Sound) : document.Classified := by
  constructor
  case types =>
    intro decl member
    have inside : ∀ item ∈ decl.items, item.Sound := fun item isInside =>
      sound item (List.mem_append_left _ (List.mem_flatMap.mpr ⟨decl, member, isInside⟩))
    cases decl with
    | struct name members docs =>
      intro parts isMember
      have parts : parts.Sound := inside (.member parts) (.tail _ (List.mem_map_of_mem isMember))
      exact parts.type.classified
    | «alias» name target docs =>
      intro type isTarget
      have decl : TypeDecl.Sound (.alias name target docs) := inside _ (.head _)
      cases isTarget
      exact (decl.target _ _ _ rfl).classified
  case routes =>
    intro group member route isRoute
    have route : route.Sound := sound (.route route) <|
      List.mem_append_right _ (List.mem_flatMap.mpr ⟨group, member, List.mem_map_of_mem isRoute⟩)
    exact ⟨fun type isRequest => (route.request type isRequest).classified,
      fun type isResponse => (route.response type isResponse).classified⟩

end ApiDescription
