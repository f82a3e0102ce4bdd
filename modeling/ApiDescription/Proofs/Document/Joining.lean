import ApiDescription.Proofs.Grammar.Continuation
import ApiDescription.Proofs.Grammar.Relocation
import ApiDescription.Proofs.Grammar.Taking
import ApiDescription.Proofs.Token.Joining
import ApiDescription.Proofs.Token.Tiling

/-!
# Joined descriptions

Two descriptions with a blank line between them describe what they describe one
after the other. No declaration reaches over the blank line: the last one of the
first description ends before it or with it, docs in front of it document nothing,
and behind it everything is read as at the start of a text.
-/

namespace ApiDescription

/-- The declarations read from a text, up to a fault if there is one. -/
def declarationsOf (text : List Char) : List Declaration :=
  match tokenize text with
  | .ok tokens => (Rule.declarations text (.ofTokens tokens)).items
  | .error _ => []

/-- The declarations of a text, if all of them can be read. -/
def declared (text : List Char) : Except SyntaxError (List Declaration) :=
  match tokenize text with
  | .error fault => .error fault
  | .ok tokens =>
    match many (Rule.declaration? text) (.ofTokens tokens) with
    | .error fault _ => .error fault
    | .ok declarations _ => .ok declarations

/-- Whether a declaration is that of the version. -/
def Declaration.isVersion : Declaration → Bool
  | .version _ => true
  | _ => false

/-- Whether a declaration is an info block. -/
def Declaration.isInfo : Declaration → Bool
  | .info _ => true
  | _ => false

namespace Document

/-- A document that holds what two documents hold one after the other, where `declared` are the
declarations of the second one. What can be said only once is said by the last to say it, except
for the name of the service, which the first block gives. -/
structure Joins (first second : Document) (declared : List Declaration) (joined : Document) :
    Prop where
  imports : joined.imports = first.imports ++ second.imports
  types : joined.types = first.types ++ second.types
  groups : joined.service.groups = first.service.groups ++ second.service.groups
  name : joined.service.name =
    if first.service.groups = [] then second.service.name else first.service.name
  version : joined.version =
    if declared.any (·.isVersion) then second.version else first.version
  info : joined.info = if declared.any (·.isInfo) then second.info else first.info
  source : joined.source = first.source

/-- A document whose service has a name if it has routes. -/
def Named (document : Document) : Prop :=
  document.service.name = [] ↔ document.service.groups = []

/-- Declarations that give their services names. -/
def NamesGroups (declarations : List Declaration) : Prop :=
  ∀ name routes, .group name routes ∈ declarations → name ≠ []

/-- One more declaration that names its service keeps a document named. -/
theorem Named.add {document : Document} (named : document.Named) {declaration : Declaration}
    (names : ∀ name routes, declaration = .group name routes → name ≠ []) :
    (document.add declaration).Named := by
  cases declaration with
  | group name routes =>
    have given := names name routes rfl
    unfold Named Document.add
    by_cases unnamed : document.service.name = [] <;> simp [unnamed, given]
  | _ => exact named

/-- A document made of declarations that name their services is named. -/
theorem Named.foldl {declarations : List Declaration} (names : NamesGroups declarations)
    {document : Document} (named : document.Named) :
    (declarations.foldl Document.add document).Named := by
  induction declarations generalizing document with
  | nil => exact named
  | cons declaration declarations inductionHypothesis =>
    refine inductionHypothesis (fun name routes member => names name routes (by simp [member])) ?_
    exact named.add fun name routes same => names name routes (by simp [same])

/-- One more declaration in the second document is one more in the joined one. -/
theorem Joins.add {first second joined : Document} {declared : List Declaration}
    (joins : Joins first second declared joined) (named : first.Named)
    (declaration : Declaration) :
    Joins first (second.add declaration) (declared ++ [declaration])
      (joined.add declaration) := by
  obtain ⟨imports, types, groups, name, version, info, source⟩ := joins
  cases declaration with
  | group given routes =>
    have joinedName : (joined.add (.group given routes)).service.name =
        if first.service.groups = [] then (second.add (.group given routes)).service.name
        else first.service.name := by
      unfold Document.add
      dsimp only
      rw [name]
      by_cases alone : first.service.groups = []
      · simp only [if_pos alone]
      · have unnamed : first.service.name ≠ [] := mt named.mp alone
        simp only [if_neg alone, if_neg unnamed]
    constructor
    case name => exact joinedName
    all_goals simp [Document.add, Declaration.isVersion, Declaration.isInfo, *]
  | _ => constructor <;> simp [Document.add, Declaration.isVersion, Declaration.isInfo, *]

/-- The declarations of both texts make the joined document. -/
theorem joins_ofDeclarations {source : Option Path} {firsts : List Declaration}
    (names : NamesGroups firsts) (seconds : List Declaration) :
    Joins (ofDeclarations source firsts) (ofDeclarations source seconds) seconds
      (ofDeclarations source (firsts ++ seconds)) := by
  have named : (ofDeclarations source firsts).Named := Named.foldl names (by simp [Named])
  have start : Joins (ofDeclarations source firsts) { source } []
      (ofDeclarations source firsts) := by
    constructor <;> simp
    exact fun alone => named.mpr alone
  have later (before : List Declaration) {second joined : Document}
      (joins : Joins (ofDeclarations source firsts) second before joined) :
      Joins (ofDeclarations source firsts) (seconds.foldl add second) (before ++ seconds)
        (seconds.foldl add joined) := by
    induction seconds generalizing before second joined with
    | nil => simpa using joins
    | cons declaration seconds inductionHypothesis =>
      have step := inductionHypothesis (before ++ [declaration]) (joins.add named declaration)
      simpa using step
  have whole : ofDeclarations source (firsts ++ seconds) =
      seconds.foldl add (ofDeclarations source firsts) := List.foldl_append
  rw [whole]
  exact later [] start

end Document

namespace Rule

/-- The token that names the service block a stream begins with: it stands in front of the brace
and behind the word `service`, above which there may be docs and an annotation. -/
structure NamesService (source : List Char) (stream : Stream) (name : Token) : Prop where
  isName : name.isName = true
  behind : ∃ server middle word brace later,
    (docs >>= fun _ => groupServer source) stream = .ok server middle ∧
    middle.ahead = word :: name :: brace :: later ∧ word.kind = .keyword .service ∧
    brace.kind = .mark .leftBrace

/-- The name of a service block is a token that was ahead. -/
theorem NamesService.mem_ahead {source : List Char} {stream : Stream} {name : Token}
    (names : NamesService source stream name) (ended : stream.Ended) : name ∈ stream.ahead := by
  obtain ⟨server, middle, word, brace, later, readServer, ahead, -⟩ := names.behind
  have forward : Forward (docs >>= fun _ => groupServer source) :=
    .bind forward_docs fun _ => forward_groupServer source
  obtain ⟨taken, split, -⟩ := forward.exists_taken ended readServer
  simp [split, ahead]

/-- A service block is named by the token behind the word `service`. -/
theorem exists_name_of_serviceGroup {source : List Char} {stream next : Stream} {found : Text}
    {routes : RouteGroup} (ended : stream.Ended)
    (read : serviceGroup source stream = .ok (found, routes) next) :
    ∃ server middle word name brace later, groupServer source stream = .ok server middle ∧
      middle.ahead = word :: name :: brace :: later ∧ word.kind = .keyword .service ∧
      name.isName = true ∧ brace.kind = .mark .leftBrace ∧ found = name.text := by
  obtain ⟨server, middle, readServer, read⟩ := bind_eq_ok_iff.mp read
  obtain ⟨word, _, readWord, read⟩ := bind_eq_ok_iff.mp read
  obtain ⟨name, beforeBrace, readName, read⟩ := bind_eq_ok_iff.mp read
  obtain ⟨brace, _, readBrace, read⟩ := bind_eq_ok_iff.mp read
  obtain ⟨_, _, _, answered⟩ := bind_eq_ok_iff.mp read
  cases answered
  obtain ⟨_, _, middleEnded⟩ := (forward_groupServer source).exists_taken ended readServer
  obtain ⟨rest, ahead, wordKind, rfl, nameEnded⟩ :=
    exists_cons_of_expect (by decide) middleEnded readWord
  obtain ⟨_, split, braceEnded, rfl, isName, -⟩ := Takes.expectName middle.next name
    beforeBrace nameEnded (show ∀ token ∈ middle.next.ahead, True from fun _ _ => trivial) readName
  obtain ⟨later, braceAhead, braceKind, -⟩ :=
    exists_cons_of_expect (by decide) braceEnded readBrace
  refine ⟨server, middle, word, name, brace, later, readServer, ?_, wordKind, isName, braceKind,
    rfl⟩
  rw [ahead, ← Stream.ahead_next ahead, split, braceAhead, List.singleton_append]

/-- A group of routes that is read comes with the name of a service block. -/
theorem exists_name_of_declaration? {source : List Char} {stream next : Stream} {found : Text}
    {routes : RouteGroup} (ended : stream.Ended)
    (read : declaration? source stream = .ok (some (.group found routes)) next) :
    ∃ name, NamesService source stream name ∧ found = name.text := by
  obtain ⟨comments, middle, readDocs, readGroup⟩ := exists_readBetween_of_declaration? read
  obtain ⟨_, _, middleEnded⟩ := forward_docs.exists_taken ended readDocs
  obtain ⟨server, behind, word, name, brace, later, readServer, ahead, wordKind, isName, braceKind,
    same⟩ := exists_name_of_serviceGroup middleEnded readGroup
  have readBoth : (docs >>= fun _ => groupServer source) stream = .ok server behind :=
    bind_eq_ok_iff.mpr ⟨comments, middle, readDocs, readServer⟩
  exact ⟨name, ⟨isName, server, behind, word, brace, later, readBoth, ahead, wordKind, braceKind⟩,
    same⟩

/-- The groups read from tokens whose names are not empty have names. -/
theorem namesGroups_of_rounds {source : List Char} {stream last : Stream}
    {declarations : List Declaration}
    (run : Rounds (declaration? source) stream declarations last) (ended : stream.Ended)
    (spelled : ∀ token ∈ stream.ahead, token.isName = true → token.text ≠ []) :
    Document.NamesGroups declarations := by
  induction run with
  | none stream => exact fun _ _ member => nomatch member
  | more read _ inductionHypothesis =>
    obtain ⟨count, rfl⟩ := (forward_declaration? source).of_ok ended read
    have later := inductionHypothesis (ended.skip count) fun token member =>
      spelled token (List.mem_of_mem_drop member)
    intro name routes member
    rcases List.mem_cons.mp member with rfl | member
    · obtain ⟨token, names, rfl⟩ := exists_name_of_declaration? ended read
      exact spelled token (names.mem_ahead ended) names.isName
    · exact later name routes member

/-- The declarations of a text are read the same with more behind it, and what is left of the
text stays in parallel, but for the line feed that may have ended the last of them. -/
theorem rounds_before {more : Extension} {source other : List Char}
    (agrees : ∀ tokens, (∀ token ∈ tokens, more.Known token) →
      valueOfTokens other tokens = valueOfTokens source tokens)
    {stream longer last : Stream} {declarations : List Declaration} (ended : stream.Ended)
    (behind : more.BehindLine stream longer)
    (run : Rounds (declaration? source) stream declarations last) :
    ∃ longerLast, Rounds (declaration? other) longer declarations longerLast ∧
      more.BehindLine last longerLast := by
  induction run generalizing longer with
  | none stream => exact ⟨longer, .none longer, behind⟩
  | @more stream middle last declaration declarations read _ inductionHypothesis =>
    obtain ⟨fewer, middleEnded⟩ := shrinks_declaration? source _ _ _ ended read
    have goesOn : stream.ahead ≠ [] :=
      List.length_pos_iff.mp (Nat.lt_of_le_of_lt (Nat.zero_le _) fewer)
    obtain ⟨longerMiddle, longerRead, middleBehind⟩ :=
      Extension.declaration?_before agrees (behind.before goesOn) read
    obtain ⟨longerLast, longerLater, lastBehind⟩ := inductionHypothesis middleEnded middleBehind
    exact ⟨longerLast, .more longerRead longerLater, lastBehind⟩

/-- Where no declaration comes next, there is only spacing left. -/
theorem all_isSpacing_of_none {source : List Char} {stream next : Stream}
    (goesOn : ∀ token ∈ stream.ahead, token.kind ≠ .endOfText)
    (read : declaration? source stream = .ok none next) :
    ∀ token ∈ stream.ahead, token.isSpacing = true := by
  obtain ⟨rfl, atEnd⟩ := atEnd_of_none read
  cases left : stream.ahead.drop (stream.ahead.takeWhile Token.isSpacing).length with
  | nil =>
    have whole : stream.ahead.takeWhile Token.isSpacing = stream.ahead := by
      refine (List.takeWhile_prefix _).eq_of_length_le ?_
      exact List.drop_eq_nil_iff.mp left
    intro token member
    rw [← whole] at member
    exact List.mem_takeWhile_imp member
  | cons token rest =>
    have ahead : (stream.skip (stream.ahead.takeWhile Token.isSpacing).length).ahead =
        token :: rest := left
    rw [Stream.current_of_cons ahead] at atEnd
    have member : token ∈ stream.ahead := List.mem_of_mem_drop (left ▸ List.mem_cons_self)
    exact absurd atEnd (goesOn token member)

/-- Behind what is left of a text and a blank line, the next declaration is read as at the start
of a text. -/
theorem declaration?_blank {more : Extension} {source other : List Char} {blank : Token}
    {later : List Token} (rest : more.rest = blank :: later) (blankKind : blank.kind = .newline)
    {stream longer next : Stream} (behind : more.BehindLine stream longer)
    (goesOn : ∀ token ∈ stream.ahead, token.kind ≠ .endOfText)
    (read : declaration? source stream = .ok none next) :
    ∃ passed, declaration? other longer = declaration? other ⟨later, longer.finish, passed⟩ := by
  have spaces : blank.isSpacing = true := by simp [Token.isSpacing, blankKind]
  obtain ⟨spacing, ahead, isSpacing, docs⟩ : ∃ spacing : List Token,
      longer.ahead = spacing ++ later ∧ (∀ token ∈ spacing, token.isSpacing = true) ∧
      docsOfRun (spacing ++ later.takeWhile Token.isSpacing) [] 0 =
        docsOfRun (later.takeWhile Token.isSpacing) [] 0 := by
    rcases behind with before | ⟨-, -, ahead⟩
    · have feedSpaces : more.feed.isSpacing = true := by simp [Token.isSpacing, more.isFeed]
      refine ⟨stream.ahead ++ [more.feed, blank], by simp [before.ahead, rest], ?_, ?_⟩
      · have all := all_isSpacing_of_none goesOn read
        simpa [or_imp, forall_and, feedSpaces, spaces] using all
      · rw [List.append_assoc]
        exact docsOfRun_blank more.isFeed blankKind _ _ _ _
    · refine ⟨[blank], by simp [ahead, rest], by simp [spaces], ?_⟩
      have noComment : blank.kind ≠ .comment := by simp [blankKind]
      rw [List.singleton_append, docsOfRun, if_neg noComment, if_pos rfl, docsOfRun_nil]
  have run : longer.ahead.takeWhile Token.isSpacing =
      spacing ++ later.takeWhile Token.isSpacing := by
    rw [ahead, List.takeWhile_append_of_pos isSpacing]
  refine ⟨longer.position + spacing.length, ?_⟩
  rw [declaration?_eq, bind_apply, bind_apply, docs_apply, docs_apply]
  dsimp only
  rw [run, docs]
  have reached : longer.skip (spacing ++ later.takeWhile Token.isSpacing).length =
      (⟨later, longer.finish, longer.position + spacing.length⟩ : Stream).skip
        (later.takeWhile Token.isSpacing).length := by
    simp [Stream.skip, ahead, List.drop_append, List.take_append, Nat.add_assoc]
  rw [reached]

end Rule

namespace Rule

/-- Nothing is declared at the end of a text. -/
theorem many_declaration?_nil (source : List Char) {stream : Stream} (atEnd : stream.ahead = [])
    (ended : stream.Ended) : many (declaration? source) stream = .ok [] stream := by
  have none : declaration? source stream = .ok none stream := by
    have kind : stream.current.kind = .endOfText := by
      rw [Stream.current_of_nil atEnd]
      exact ended
    rw [declaration?_eq, bind_apply, docs_apply, atEnd]
    simp only [List.takeWhile_nil, List.length_nil, Stream.skip_zero, declarationBelow, kind]
    rfl
  exact many_of_rounds (.none stream) none (Nat.zero_le _)

end Rule

/-- Tokens displaced by whole lines say what they said before. -/
def Displacement.relocation (moved : Displacement) : Relocation where
  token := moved.token
  line := (· + moved.lines)
  fault failure :=
    { failure with
      cause := failure.cause.map moved.token
      line := failure.line + moved.lines }
  kind_token _ := rfl
  value_token _ := rfl
  line_token _ := rfl
  line_injective _ _ same := Nat.add_right_cancel same
  fault_located _ _ := rfl

/-- What is cut out of a text is cut out of the text with more behind it. -/
theorem sliceOf_append_left {text : List Char} {start stop : Nat}
    (startInside : start ≤ text.length)
    (stopInside : stop ≤ text.length) (more : List Char) :
    sliceOf (text ++ more) start stop = sliceOf text start stop := by
  have enough : stop - start ≤ (text.drop start).length := by
    rw [List.length_drop]
    omega
  rw [sliceOf, List.drop_append_of_le_length startInside, List.take_append_of_le_length enough]
  rfl

/-- What is cut out of a text is cut further on out of the text with more before it. -/
theorem sliceOf_append_right (before text : List Char) (start stop : Nat) :
    sliceOf (before ++ text) (start + before.length) (stop + before.length) =
      sliceOf text start stop := by
  have distance : stop + before.length - (start + before.length) = stop - start := by omega
  rw [sliceOf, distance, Nat.add_comm start, List.drop_length_add_append]
  rfl

/-- A token that has characters in a text. -/
def Token.Inside (text : List Char) (token : Token) : Prop :=
  token.kind ≠ .endOfText ∧ token.start.offset < token.stop ∧ token.stop ≤ text.length

/-- No token has characters in an empty text. -/
theorem eq_nil_of_inside {tokens : List Token} (inside : ∀ token ∈ tokens, token.Inside []) :
    tokens = [] := by
  refine List.eq_nil_iff_forall_not_mem.mpr fun token member => ?_
  obtain ⟨-, filled, within⟩ := inside token member
  simp only [List.length_nil] at within
  omega

/-- Values of properties in a text do not depend on what follows the text. -/
theorem valueOfTokens_append_left (text more : List Char) (tokens : List Token)
    (inside : ∀ token ∈ tokens, token.Inside text) :
    valueOfTokens (text ++ more) tokens = valueOfTokens text tokens := by
  cases tokens with
  | nil => rfl
  | cons token rest =>
    obtain ⟨-, filled, within⟩ := inside token List.mem_cons_self
    have lastInside := (inside _ (List.getLastD_mem_cons : rest.getLastD token ∈ _)).2.2
    have filledText : text ≠ [] := by
      rintro rfl
      simp at within
      omega
    have slice := sliceOf_append_left (show token.start.offset ≤ text.length by omega)
      lastInside more
    simp only [valueOfTokens, slice]
    simp [filledText]

/-- Values of properties in a text do not depend on what precedes the text. -/
theorem valueOfTokens_append_right {moved : Displacement} {before : List Char}
    (further : moved.characters = before.length) {text : List Char} (goesOn : text ≠ [])
    (tokens : List Token) :
    valueOfTokens (before ++ text) (tokens.map moved.token) = valueOfTokens text tokens := by
  cases tokens with
  | nil => rfl
  | cons token rest =>
    have text : (moved.token token).text = token.text := rfl
    have kind : (moved.token token).kind = token.kind := rfl
    have start : (moved.token token).start.offset = token.start.offset + before.length :=
      congrArg (token.start.offset + ·) further
    have stop : ((rest.map moved.token).getLastD (moved.token token)).stop =
        (rest.getLastD token).stop + before.length := by
      rw [← further]
      exact congrArg Token.stop List.getLastD_map
    simp only [List.map_cons, valueOfTokens, start, stop, sliceOf_append_right, text, kind]
    simp [goesOn]

namespace Document

/-- A document is what the declarations of a text make, if all of them can be read. -/
theorem parse_eq (source : Source) :
    parse source =
      match tokenize source.text with
      | .error fault => .error fault
      | .ok tokens =>
        match many (Rule.declaration? source.text) (.ofTokens tokens) with
        | .error fault _ => .error fault
        | .ok declarations _ => .ok (ofDeclarations (some source.file) declarations) := by
  unfold parse read Rule.declarations many
  cases tokenize source.text with
  | error fault => rfl
  | ok tokens =>
    dsimp only
    cases (collect (Rule.declaration? source.text) (Stream.ofTokens tokens)).fault <;> rfl

/-- A document is made of the declarations of its text. -/
theorem parse_eq_declared (source : Source) :
    parse source = (declared source.text).map (ofDeclarations (some source.file)) := by
  rw [parse_eq, declared]
  cases tokenize source.text with
  | error fault => rfl
  | ok tokens =>
    dsimp only
    cases many (Rule.declaration? source.text) (.ofTokens tokens) <;> rfl

/-- The declarations of a text make a document of it. -/
theorem parse_of_declared {text : List Char} {declarations : List Declaration}
    (read : declared text = .ok declarations) (file : Path) :
    parse ⟨file, text⟩ = .ok (ofDeclarations (some file) declarations) := by
  rw [parse_eq_declared, read]
  rfl

/-- A text that is a description has declarations. -/
theorem exists_declared_of_parse {file : Path} {text : List Char} {document : Document}
    (read : parse ⟨file, text⟩ = .ok document) :
    ∃ declarations, declared text = .ok declarations ∧
      document = ofDeclarations (some file) declarations := by
  rw [parse_eq_declared] at read
  cases found : declared text with
  | error fault =>
    rw [found] at read
    exact nomatch read
  | ok declarations =>
    rw [found] at read
    exact ⟨declarations, rfl, (Except.ok.inj read).symm⟩

end Document

/-- A name has characters. -/
theorem Token.text_ne_nil_of_isName {token : Token} {slice : List Char}
    (spelled : Lexeme.Spells token.kind slice token.value) (name : token.isName = true) :
    token.text ≠ [] := by
  obtain ⟨kind, value, start, stop⟩ := token
  cases spelled with
  | @word c rest _ _ _ =>
    change Text.ofString (String.ofList (c :: rest)) ≠ []
    rw [Text.ofString, String.toList_ofList]
    exact List.cons_ne_nil _ _
  | _ => simp [Token.isName] at name

/-- The stream over the tokens of a text has all of them ahead, and ends with the end of the
text. -/
theorem exists_stream_of_tokenize {text : List Char} {tokens : List Token}
    (read : tokenize text = .ok tokens) :
    ∃ others finish, tokens = others ++ [finish] ∧ finish.kind = .endOfText ∧
      ∀ token ∈ others, token.Inside text ∧ (token.isName = true → token.text ≠ []) := by
  obtain ⟨others, place, rfl, -, last, tiles, -, -⟩ := exists_tiles_of_tokenize read
  refine ⟨others, Token.finish place, rfl, rfl, fun token member => ?_⟩
  obtain ⟨filled, within, spelled⟩ := tiles.spelled token member
  exact ⟨⟨spelled.ne_endOfText, filled, within⟩, Token.text_ne_nil_of_isName spelled⟩

namespace Document

/-- The declarations of a text are those read from its tokens displaced in a longer text, and so is
their fault. -/
theorem many_declaration?_moved {moved : Displacement} {before text : List Char}
    (further : moved.characters = before.length) {tokens : List Token} {finish : Token}
    (ends : finish.kind = .endOfText) (inside : ∀ token ∈ tokens, token.Inside text)
    (passed : Nat) :
    many (Rule.declaration? (before ++ text))
        (moved.relocation.stream passed ⟨tokens, finish, 0⟩) =
      moved.relocation.result passed id (many (Rule.declaration? text) ⟨tokens, finish, 0⟩) := by
  by_cases nothing : text = []
  · subst nothing
    obtain rfl := eq_nil_of_inside inside
    rw [show many (Rule.declaration? []) ⟨[], finish, 0⟩ = .ok [] ⟨[], finish, 0⟩ from
      Rule.many_declaration?_nil [] rfl ends]
    exact Rule.many_declaration?_nil _ rfl ends
  · exact Relocation.Relocates.declarations (valueOfTokens_append_right further nothing) _

/-- The declarations of two texts with a blank line between them, the first of which can be
read, are those of the first and those of the second, or the fault of the second. -/
theorem many_declaration?_append {first second : List Char} {tokens later : List Token}
    {declarations : List Declaration} {left : Stream} {feed blank : Token}
    (feedKind : feed.kind = .newline) (blankKind : blank.kind = .newline)
    {finish otherFinish : Token} (ends : finish.kind = .endOfText)
    (otherEnds : otherFinish.kind = .endOfText)
    (inside : ∀ token ∈ tokens, token.Inside first)
    (otherInside : ∀ token ∈ later, token.Inside second)
    (read : many (Rule.declaration? first) ⟨tokens, finish, 0⟩ = .ok declarations left) :
    let moved := Displacement.behind first
    let joined := first ++ '\n' :: '\n' :: second
    let stream : Stream :=
      ⟨tokens ++ feed :: blank :: later.map moved.token, moved.token otherFinish, 0⟩
    match many (Rule.declaration? second) ⟨later, otherFinish, 0⟩ with
    | .ok others _ => ∃ next, many (Rule.declaration? joined) stream =
        .ok (declarations ++ others) next
    | .error fault _ => ∃ next, many (Rule.declaration? joined) stream =
        .error (moved.relocation.fault fault) next := by
  intro moved joined stream
  have shrinks := Rule.shrinks_declaration? joined
  have streamEnded : stream.Ended := otherEnds
  let more : Extension := ⟨feed, blank :: later.map moved.token, Token.Inside first, feedKind⟩
  have agrees (values : List Token) (known : ∀ token ∈ values, more.Known token) :
      valueOfTokens joined values = valueOfTokens first values :=
    valueOfTokens_append_left first ('\n' :: '\n' :: second) values known
  have before : more.Before ⟨tokens, finish, 0⟩ stream := ⟨ends, rfl, inside⟩
  obtain ⟨last, run, ended⟩ := (many_eq_ok_iff (Rule.shrinks_declaration? first)
    (show Stream.Ended ⟨tokens, finish, 0⟩ from ends)).mp read
  obtain ⟨longerLast, longerRun, behind⟩ := Rule.rounds_before agrees
    (show Stream.Ended ⟨tokens, finish, 0⟩ from ends) (.inl before) run
  have goesOn : ∀ token ∈ last.ahead, token.kind ≠ .endOfText := by
    rcases behind with before | ⟨-, atEnd, -⟩
    · exact fun token member => (before.known token member).1
    · simp [atEnd]
  obtain ⟨passed, same⟩ := Rule.declaration?_blank rfl blankKind behind goesOn ended
  obtain ⟨count, skipped⟩ := (Rule.forward_declaration? joined).rounds longerRun streamEnded
  have start : (⟨later.map moved.token, longerLast.finish, passed⟩ : Stream) =
      moved.relocation.stream passed ⟨later, otherFinish, 0⟩ := by
    simp [Relocation.stream, skipped, Stream.skip, stream, Displacement.relocation]
  rw [start] at same
  have startEnded : (moved.relocation.stream passed ⟨later, otherFinish, 0⟩).Ended := otherEnds
  have further : moved.characters = (first ++ ['\n', '\n']).length := by
    simp [moved, Displacement.behind]
  have relocated := many_declaration?_moved further otherEnds otherInside passed
  rw [List.append_assoc, List.cons_append, List.singleton_append] at relocated
  cases readLater : many (Rule.declaration? second) ⟨later, otherFinish, 0⟩ with
  | ok others left =>
    rw [readLater] at relocated
    obtain ⟨end', whole, wholeEnd⟩ := Rounds.exists_of_round_eq same
      ((many_eq_ok_iff shrinks startEnded).mp relocated)
    exact ⟨_, (many_eq_ok_iff shrinks streamEnded).mpr ⟨end', longerRun.append whole, wholeEnd⟩⟩
  | error fault left =>
    rw [readLater] at relocated
    obtain ⟨others, ends⟩ := (many_eq_error_iff shrinks startEnded).mp relocated
    obtain ⟨end', whole, wholeEnd⟩ := Rounds.exists_of_round_eq same ends
    exact ⟨_, (many_eq_error_iff shrinks streamEnded).mpr
      ⟨_, end', longerRun.append whole, wholeEnd⟩⟩

/-- The declarations of a text are read from its tokens, and name their services. -/
theorem exists_stream_of_declared {text : List Char} {declarations : List Declaration}
    (read : declared text = .ok declarations) :
    ∃ tokens finish left, tokenize text = .ok (tokens ++ [finish]) ∧
      finish.kind = .endOfText ∧ (∀ token ∈ tokens, token.Inside text) ∧
      many (Rule.declaration? text) ⟨tokens, finish, 0⟩ = .ok declarations left ∧
      NamesGroups declarations := by
  rw [declared] at read
  cases lexed : tokenize text with
  | error fault =>
    rw [lexed] at read
    exact nomatch read
  | ok all =>
    obtain ⟨tokens, finish, rfl, ends, known⟩ := exists_stream_of_tokenize lexed
    have stream := Stream.ofTokens_append (fun token member => (known token member).1.1) ends
    rw [lexed] at read
    dsimp only at read
    rw [stream] at read
    cases readAll : many (Rule.declaration? text) ⟨tokens, finish, 0⟩ with
    | error fault left =>
      rw [readAll] at read
      exact nomatch read
    | ok found left =>
      rw [readAll] at read
      obtain rfl := Except.ok.inj read
      obtain ⟨last, run, -⟩ := (many_eq_ok_iff (Rule.shrinks_declaration? text)
        (show Stream.Ended ⟨tokens, finish, 0⟩ from ends)).mp readAll
      refine ⟨tokens, finish, left, rfl, ends, fun token member => (known token member).1, readAll,
        ?_⟩
      exact Rule.namesGroups_of_rounds run ends fun token member => (known token member).2

/-- A text that is a description is read into declarations that name their services. -/
theorem exists_declarations_of_parse {file : Path} {text : List Char} {document : Document}
    (read : parse ⟨file, text⟩ = .ok document) :
    ∃ tokens finish declarations left, tokenize text = .ok (tokens ++ [finish]) ∧
      finish.kind = .endOfText ∧ (∀ token ∈ tokens, token.Inside text) ∧
      many (Rule.declaration? text) ⟨tokens, finish, 0⟩ = .ok declarations left ∧
      NamesGroups declarations ∧ document = ofDeclarations (some file) declarations := by
  obtain ⟨declarations, found, same⟩ := exists_declared_of_parse read
  obtain ⟨tokens, finish, left, lexed, ends, inside, readAll, names⟩ :=
    exists_stream_of_declared found
  exact ⟨tokens, finish, declarations, left, lexed, ends, inside, readAll, names, same⟩

/-- The declarations of a text are all that can be read from it. -/
theorem declarationsOf_of_declared {text : List Char} {declarations : List Declaration}
    (read : declared text = .ok declarations) : declarationsOf text = declarations := by
  obtain ⟨tokens, finish, left, lexed, ends, inside, readAll, -⟩ := exists_stream_of_declared read
  rw [declarationsOf, lexed]
  dsimp only
  rw [Stream.ofTokens_append (fun token member => (inside token member).1) ends]
  exact items_of_many readAll

/-- The declarations of a text with another one behind it and a blank line between them are those
of both; and if the other one has a fault, it is found at the same place of it. -/
theorem declared_append {first : List Char} {declarations : List Declaration}
    (read : declared first = .ok declarations) (second : List Char) :
    match declared second with
    | .ok others => declared (first ++ '\n' :: '\n' :: second) = .ok (declarations ++ others)
    | .error fault => ∃ further, declared (first ++ '\n' :: '\n' :: second) = .error further ∧
        further.message = fault.message ∧ further.column = fault.column ∧
        further.line = fault.line + first.count '\n' + 2 := by
  obtain ⟨tokens, finish, left, lexed, ends, inside, readAll, -⟩ := exists_stream_of_declared read
  obtain ⟨others, other, feed, blank, same, feedKind, blankKind, joinedLexed⟩ :=
    tokenize_append lexed second
  obtain ⟨rfl, same⟩ := List.append_inj' same rfl
  rw [declared, declared, joinedLexed]
  cases lexedSecond : tokenize second with
  | error fault => exact ⟨_, rfl, rfl, rfl, (Nat.add_assoc _ _ _).symm⟩
  | ok all =>
    obtain ⟨later, otherFinish, rfl, otherEnds, known⟩ := exists_stream_of_tokenize lexedSecond
    have goesOn : ∀ token ∈ later, token.kind ≠ .endOfText :=
      fun token member => (known token member).1.1
    have stream := Stream.ofTokens_append goesOn otherEnds
    have joinedStream : Stream.ofTokens (tokens ++ feed :: blank ::
        (later ++ [otherFinish]).map (Displacement.behind first).token) =
        ⟨tokens ++ feed :: blank :: later.map (Displacement.behind first).token,
          (Displacement.behind first).token otherFinish, 0⟩ := by
      have firstGoesOn := fun token member => (inside token member).1
      have all := Stream.ofTokens_append
        (show ∀ token ∈ tokens ++ feed :: blank :: later.map (Displacement.behind first).token,
          token.kind ≠ .endOfText by
            simpa [or_imp, forall_and, feedKind, blankKind] using ⟨firstGoesOn, goesOn⟩)
        (show ((Displacement.behind first).token otherFinish).kind = .endOfText from otherEnds)
      simpa using all
    have joined := many_declaration?_append feedKind blankKind ends otherEnds inside
      (fun token member => (known token member).1) readAll
    dsimp only at joined ⊢
    rw [stream, joinedStream]
    cases readSecond : many (Rule.declaration? second) ⟨later, otherFinish, 0⟩ with
    | error fault _ =>
      rw [readSecond] at joined
      obtain ⟨next, whole⟩ := joined
      rw [whole]
      exact ⟨_, rfl, (Displacement.behind first).relocation.message_map fault.cause, rfl,
        (Nat.add_assoc _ _ _).symm⟩
    | ok laters _ =>
      rw [readSecond] at joined
      obtain ⟨next, whole⟩ := joined
      rw [whole]

/-- A description with another one behind it and a blank line between them is what both of them
describe; and if the other one is none, its fault is found at the same place of it. -/
theorem parse_append {file : Path} {first : List Char} {document : Document}
    (read : parse ⟨file, first⟩ = .ok document) (second : List Char) :
    match parse ⟨file, second⟩ with
    | .ok later => ∃ joined, parse ⟨file, first ++ "\n\n".toList ++ second⟩ = .ok joined ∧
        Joins document later (declarationsOf second) joined
    | .error fault => ∃ further,
        parse ⟨file, first ++ "\n\n".toList ++ second⟩ = .error further ∧
          further.message = fault.message ∧ further.column = fault.column ∧
          further.line = fault.line + first.count '\n' + 2 := by
  have text : first ++ "\n\n".toList ++ second = first ++ '\n' :: '\n' :: second := by simp
  obtain ⟨declarations, found, rfl⟩ := exists_declared_of_parse read
  have joined := declared_append found second
  rw [text, parse_eq_declared, parse_eq_declared]
  dsimp only
  cases readSecond : declared second with
  | error fault =>
    rw [readSecond] at joined
    obtain ⟨further, whole, located⟩ := joined
    rw [whole]
    exact ⟨further, rfl, located⟩
  | ok others =>
    rw [readSecond] at joined
    obtain ⟨-, -, -, -, -, -, -, names⟩ := exists_stream_of_declared found
    rw [joined, declarationsOf_of_declared readSecond]
    exact ⟨_, rfl, joins_ofDeclarations names others⟩

/-- Docs at the end of the first text document nothing in the second, and an error of the second
is found below the lines of the first and the blank line. -/
theorem parse_append_docs :
    let file : Path := Path.ofString "a.api"
    let first := "service s \x7b\x7d\n// lost".toList
    let second := "type t int".toList
    let refused := "type\n".toList
    ∃ document, parse ⟨file, first⟩ = .ok document ∧
      (∃ joined, parse ⟨file, first ++ "\n\n".toList ++ second⟩ = .ok joined ∧
        joined.types = [.alias "t" (some (.ofName "int")) []]) ∧
      ∃ further, parse ⟨file, first ++ "\n\n".toList ++ refused⟩ = .error further ∧
        further.line = 4 ∧ further.column = 5 := by
  intro file first second refused
  have read : parse ⟨file, first⟩ =
      .ok { service := { name := "s", groups := [{}] }, source := some file } := by
    decide +kernel
  have readSecond : parse ⟨file, second⟩ =
      .ok { types := [.alias "t" (some (.ofName "int")) []], source := some file } := by
    decide +kernel
  have fault : parse ⟨file, refused⟩ =
      .error ⟨.expectedName ⟨.newline, "\\n", ⟨4, 1, 5⟩, 5⟩, 1, 5⟩ := by
    decide +kernel
  have lines : first.count '\n' = 1 := by decide +kernel
  clear_value file first second refused
  have both := parse_append read second
  have failed := parse_append read refused
  rw [readSecond] at both
  rw [fault, lines] at failed
  obtain ⟨joined, whole, joins⟩ := both
  obtain ⟨further, wholeFailed, -, column, line⟩ := failed
  exact ⟨_, read, ⟨joined, whole, joins.types⟩, further, wholeFailed, line, column⟩

end Document

end ApiDescription
