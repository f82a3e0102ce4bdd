import ApiDescription.Proofs.Document.Joining
import ApiDescription.Proofs.Grammar.Advancing
import ApiDescription.Proofs.Grammar.Lookahead

/-!
# Faults of changed descriptions

A fault of a description follows from the tokens up to the one in front of which reading has
stopped, and from the source up to there. Whatever is changed, added or removed behind that token,
the same fault is reported at the same place, and reading stops at the same token.
-/

namespace ApiDescription

namespace Stream

variable {tokens : List Token}

/-- The stream over a list of tokens has none ahead that is the end of the text. -/
theorem goesOn_ofTokens (tokens : List Token) :
    ∀ token ∈ (ofTokens tokens).ahead, token.kind ≠ .endOfText :=
  fun _ member => by simpa using List.mem_takeWhile_imp member

/-- The stream over tokens among which there is an end of text ends with it. -/
theorem ended_ofTokens {finish : Token} (member : finish ∈ tokens)
    (ends : finish.kind = .endOfText) : (ofTokens tokens).Ended := by
  have found : (tokens.find? (·.kind = .endOfText)).isSome :=
    List.find?_isSome.mpr ⟨finish, member, by simpa using ends⟩
  obtain ⟨first, isFirst⟩ := Option.isSome_iff_exists.mp found
  have kind : first.kind = .endOfText := by simpa using List.find?_some isFirst
  rw [Ended, ofTokens, isFirst]
  exact kind

/-- Behind tokens that are no end of text the next token of the list is read, be it the end or
another one. -/
theorem current_skip_ofTokens {count : Nat} {token : Token}
    (goesOn : ∀ found ∈ tokens.take count, found.kind ≠ .endOfText)
    (here : tokens[count]? = some token) : ((ofTokens tokens).skip count).current = token := by
  obtain ⟨bounded, rfl⟩ := List.getElem?_eq_some_iff.mp here
  have split : tokens = tokens.take count ++ tokens[count] :: tokens.drop (count + 1) := by
    rw [← List.drop_eq_getElem_cons, List.take_append_drop]
  have length : (tokens.take count).length = count := by
    rw [List.length_take]
    omega
  generalize tokens[count] = token at split
  generalize tokens.drop (count + 1) = rest at split
  generalize tokens.take count = before at goesOn split length
  subst split length
  have passed : ((ofTokens (before ++ token :: rest)).skip before.length).ahead =
      (token :: rest).takeWhile (·.kind ≠ .endOfText) := by
    rw [skip, ofTokens, List.takeWhile_append_of_pos (by simpa using goesOn)]
    exact List.drop_left
  by_cases ends : token.kind = .endOfText
  · rw [List.takeWhile_cons_of_neg (by simpa using ends)] at passed
    rw [current_of_nil passed, skip, ofTokens, List.find?_append,
      List.find?_eq_none.mpr (by simpa using goesOn), List.find?_cons_of_pos (by simpa using ends)]
    rfl
  · rw [List.takeWhile_cons_of_pos (by simpa using ends)] at passed
    exact current_of_cons passed

end Stream

namespace Document

variable {file : Path} {source other : List Char} {tokens others : List Token}
  {fault : SyntaxError} {position : Nat}

/-- Reading a document from tokens fails, and stops in front of the token at a position. -/
def FailsAt (file : Path) (source : List Char) (tokens : List Token) (fault : SyntaxError)
    (position : Nat) : Prop :=
  ∃ stream, Rule.document file source (.ofTokens tokens) = .error fault stream ∧
    stream.position = position

/-- Where reading fails, there is a token, and those in front of it are no end of the text. -/
theorem FailsAt.exists_token (failed : FailsAt file source tokens fault position)
    {finish : Token} (member : finish ∈ tokens) (ends : finish.kind = .endOfText) :
    position < tokens.length ∧ ∀ token ∈ tokens.take position, token.kind ≠ .endOfText := by
  obtain ⟨stream, failed, rfl⟩ := failed
  obtain ⟨count, behind⟩ :=
    Rule.forward_document file source _ (Stream.ended_ofTokens member ends)
  have within : stream.position ≤ (tokens.takeWhile (·.kind ≠ .endOfText)).length := by
    rw [failed] at behind
    obtain rfl : stream = _ := behind
    rw [Stream.skip, List.length_take]
    exact Nat.le_trans (Nat.le_of_eq (Nat.zero_add _)) (Nat.min_le_right _ _)
  obtain ⟨rest, whole⟩ := List.takeWhile_prefix (p := (·.kind ≠ .endOfText)) (l := tokens)
  have fewer : rest ≠ [] := by
    rintro rfl
    rw [List.append_nil] at whole
    have goesOn := List.mem_takeWhile_imp (whole ▸ member)
    simp [ends] at goesOn
  refine ⟨?_, fun token early => ?_⟩
  · have length := congrArg List.length whole
    rw [List.length_append] at length
    have := List.length_pos_iff.mpr fewer
    omega
  · rw [← whole, List.take_append_of_le_length within] at early
    simpa using List.mem_takeWhile_imp (List.mem_of_mem_take early)

/-- Streams over two lists of tokens share what stands in front of a change. -/
theorem shares_ofTokens (revision : Revision) {finish otherFinish : Token}
    (member : finish ∈ tokens) (ends : finish.kind = .endOfText)
    (otherMember : otherFinish ∈ others) (otherEnds : otherFinish.kind = .endOfText)
    (within : revision.last < tokens.length)
    (goesOn : ∀ token ∈ tokens.take revision.last, token.kind ≠ .endOfText)
    (same : others.take (revision.last + 1) = tokens.take (revision.last + 1))
    (kept : ∀ token ∈ tokens.take (revision.last + 1), revision.Keeps token) :
    revision.Shares (.ofTokens tokens) (.ofTokens others) := by
  have here (count : Nat) (bounded : count ≤ revision.last) :
      ∃ token ∈ tokens.take (revision.last + 1),
        ((Stream.ofTokens tokens).skip count).current = token ∧
        ((Stream.ofTokens others).skip count).current = token := by
    have isToken : tokens[count]? = some tokens[count] := List.getElem?_eq_getElem (by omega)
    have shared : (tokens.take (revision.last + 1))[count]? = some tokens[count] := by
      rw [List.getElem?_take_of_lt (by omega), isToken]
    have isOther : others[count]? = some tokens[count] := by
      rw [← List.getElem?_take_of_lt (by omega : count < revision.last + 1), same, shared]
    have otherBefore : others.take count = tokens.take count := by
      have before := congrArg (List.take count) same
      rwa [List.take_take, List.take_take, Nat.min_eq_left (by omega)] at before
    have before : ∀ token ∈ tokens.take count, token.kind ≠ .endOfText := fun token early =>
      goesOn token (List.mem_of_mem_take (by rwa [List.take_take, Nat.min_eq_left bounded] : _ ∈ _))
    exact ⟨_, List.mem_of_getElem? shared, Stream.current_skip_ofTokens before isToken,
      Stream.current_skip_ofTokens (by rwa [otherBefore]) isOther⟩
  have start : (Stream.ofTokens tokens).position = 0 := rfl
  constructor
  case ended => exact Stream.ended_ofTokens member ends
  case otherEnded => exact Stream.ended_ofTokens otherMember otherEnds
  case goesOn => exact Stream.goesOn_ofTokens tokens
  case otherGoesOn => exact Stream.goesOn_ofTokens others
  case position => rfl
  case token =>
    intro count bounded
    obtain ⟨token, -, found, otherFound⟩ := here count (by omega)
    rw [found, otherFound]
  case text =>
    intro count bounded
    obtain ⟨token, shared, found, -⟩ := here count (by omega)
    rw [found]
    exact kept token shared

/-- A fault is the same in every text that has the tokens up to the one in front of which reading
stops, and is the same up to their ends. -/
theorem FailsAt.of_kept (failed : FailsAt file source tokens fault position)
    (sameEmpty : other.isEmpty = source.isEmpty) {finish otherFinish : Token}
    (member : finish ∈ tokens) (ends : finish.kind = .endOfText)
    (otherMember : otherFinish ∈ others) (otherEnds : otherFinish.kind = .endOfText)
    (same : others.take (position + 1) = tokens.take (position + 1))
    (kept : ∀ token ∈ tokens.take (position + 1), other.take token.stop = source.take token.stop) :
    FailsAt file other others fault position := by
  obtain ⟨within, goesOn⟩ := failed.exists_token member ends
  let revision : Revision := ⟨source, other, position, sameEmpty⟩
  have shares := shares_ofTokens revision member ends otherMember otherEnds within goesOn same kept
  obtain ⟨stream, failed, stopped⟩ := failed
  have repeats := (Revision.Settles.document file).reads _ _ shares
    (by rw [failed]; exact Nat.le_of_eq stopped)
  rw [failed] at repeats
  generalize answered : Rule.document file revision.other _ = result at repeats
  cases repeats with
  | error shares => exact ⟨_, answered, shares.position.trans stopped⟩

/-- Texts that are the same up to the end of a token are the same up to the ends of the tokens
before it, if tokens end one behind the other. -/
theorem kept_of_inOrder (inOrder : tokens.Pairwise fun token later => token.stop ≤ later.stop)
    (within : position < tokens.length)
    (kept : ∀ token ∈ tokens[position]?, other.take token.stop = source.take token.stop) :
    ∀ token ∈ tokens.take (position + 1), other.take token.stop = source.take token.stop := by
  intro token early
  have before : token.stop ≤ tokens[position].stop := by
    obtain ⟨index, bounded, rfl⟩ := List.mem_take_iff_getElem.mp early
    rcases Nat.lt_or_ge index position with earlier | atPosition
    · exact List.pairwise_iff_getElem.mp inOrder _ _ _ _ earlier
    · obtain rfl : index = position := by omega
      exact Nat.le_refl _
  have whole := congrArg (List.take token.stop) (kept _ (List.getElem?_eq_getElem within))
  rwa [List.take_take, List.take_take, Nat.min_eq_left before] at whole

/-- The tokens of a text end one behind the other. -/
theorem inOrder_of_tokenize (read : tokenize source = .ok tokens) :
    tokens.Pairwise fun token later => token.stop ≤ later.stop := by
  obtain ⟨others, place, rfl, atEnd, last, tiles, -, -⟩ := exists_tiles_of_tokenize read
  rw [List.pairwise_append]
  refine ⟨tiles.ordered.imp_of_mem fun _ member before => ?_, List.pairwise_singleton _ _, ?_⟩
  · have filled := (tiles.spelled _ member).1
    omega
  · intro token member finish isFinish
    rw [List.mem_singleton.mp isFinish]
    exact Nat.le_trans (tiles.spelled token member).2.1 (Nat.le_of_eq atEnd.symm)

/-- A fault among the tokens of a text is the fault of the text. -/
theorem FailsAt.parse_eq (failed : FailsAt file source tokens fault position)
    (read : tokenize source = .ok tokens) : parse ⟨file, source⟩ = .error fault := by
  obtain ⟨stream, failed, -⟩ := failed
  rw [Document.parse_eq]
  simp only [read]
  rw [Rule.document, bind_apply] at failed
  cases readAll : many (Rule.declaration? source) (.ofTokens tokens) with
  | ok declarations next =>
    rw [readAll] at failed
    exact nomatch failed
  | error first next =>
    rw [readAll] at failed
    exact congrArg Except.error (EStateM.Result.error.inj failed).1

/-- A fault depends on nothing behind the token in front of which reading stops. It is the same
fault, at the same place and position, for every list that has the tokens up to that one and every
source that is the same up to their ends. Where tokens end one behind the other, as those of a text
do, it is enough that the source is the same up to the end of that token; and whatever a text is
changed to behind it, the same fault is reported. -/
theorem FailsAt.of_shared (failed : FailsAt file source tokens fault position)
    (written : source ≠ []) (otherWritten : other ≠ [])
    (ends : ∃ finish ∈ tokens.getLast?, finish.kind = .endOfText)
    (otherEnds : ∃ finish ∈ others.getLast?, finish.kind = .endOfText)
    (same : others.take (position + 1) = tokens.take (position + 1)) :
    ((∀ token ∈ tokens.take (position + 1), other.take token.stop = source.take token.stop) →
      FailsAt file other others fault position) ∧
    ((∀ token ∈ tokens[position]?, other.take token.stop = source.take token.stop) →
      (tokens.Pairwise (fun token later => token.stop ≤ later.stop) →
        FailsAt file other others fault position) ∧
      (tokenize source = .ok tokens → tokenize other = .ok others →
        FailsAt file other others fault position ∧ parse ⟨file, other⟩ = .error fault)) := by
  obtain ⟨finish, isLast, ends⟩ := ends
  obtain ⟨otherFinish, isOtherLast, otherEnds⟩ := otherEnds
  have member := List.mem_of_mem_getLast? isLast
  have within := (failed.exists_token member ends).1
  have sameEmpty : other.isEmpty = source.isEmpty := by
    rw [List.isEmpty_eq_false_iff.mpr written, List.isEmpty_eq_false_iff.mpr otherWritten]
  have sameFault := failed.of_kept sameEmpty member ends (List.mem_of_mem_getLast? isOtherLast)
    otherEnds same
  refine ⟨sameFault, fun kept => ⟨fun inOrder => ?_, fun read otherRead => ?_⟩⟩
  · exact sameFault (kept_of_inOrder inOrder within kept)
  · have fails := sameFault (kept_of_inOrder (inOrder_of_tokenize read) within kept)
    exact ⟨fails, fails.parse_eq otherRead⟩

/-- A route whose handler has an empty name is refused behind its line. What stands behind the brace
that closes its service does not matter. -/
theorem of_shared_handler :
    let file := Path.ofString "a.api"
    let source := "service s \x7b\n@server (handler:)\nget /a\n\x7d".toList
    let other := "service s \x7b\n@server (handler:)\nget /a\n\x7d type".toList
    let shared : List Token :=
      [⟨.keyword .service, "service", ⟨0, 1, 1⟩, 7⟩, ⟨.identifier, "s", ⟨8, 1, 9⟩, 9⟩,
       ⟨.mark .leftBrace, "\x7b", ⟨10, 1, 11⟩, 11⟩, ⟨.newline, "\\n", ⟨11, 1, 12⟩, 12⟩,
       ⟨.marker .server, "@server", ⟨12, 2, 1⟩, 19⟩, ⟨.mark .leftParen, "(", ⟨20, 2, 9⟩, 21⟩,
       ⟨.identifier, "handler", ⟨21, 2, 10⟩, 28⟩, ⟨.mark .colon, ":", ⟨28, 2, 17⟩, 29⟩,
       ⟨.mark .rightParen, ")", ⟨29, 2, 18⟩, 30⟩, ⟨.newline, "\\n", ⟨30, 2, 19⟩, 31⟩,
       ⟨.identifier, "get", ⟨31, 3, 1⟩, 34⟩, ⟨.path, "/a", ⟨35, 3, 5⟩, 37⟩,
       ⟨.newline, "\\n", ⟨37, 3, 7⟩, 38⟩, ⟨.mark .rightBrace, "\x7d", ⟨38, 4, 1⟩, 39⟩]
    let tokens := shared ++ [⟨.endOfText, "", ⟨39, 4, 2⟩, 39⟩]
    let others := shared ++
      [⟨.keyword .type, "type", ⟨40, 4, 3⟩, 44⟩, ⟨.endOfText, "", ⟨44, 4, 7⟩, 44⟩]
    let fault : SyntaxError := ⟨.missingHandler "get" "/a", 3, 1⟩
    tokenize source = .ok tokens ∧ tokenize other = .ok others ∧
      FailsAt file source tokens fault 13 ∧ FailsAt file other others fault 13 ∧
      parse ⟨file, other⟩ = .error fault := by
  intro file source other shared tokens others fault
  have read : tokenize source = .ok tokens := by decide +kernel
  have otherRead : tokenize other = .ok others := by decide +kernel
  have failed : FailsAt file source tokens fault 13 :=
    ⟨⟨[⟨.mark .rightBrace, "\x7d", ⟨38, 4, 1⟩, 39⟩], ⟨.endOfText, "", ⟨39, 4, 2⟩, 39⟩, 13⟩,
      by decide +kernel, rfl⟩
  have kept : ∀ token ∈ tokens[13]?, other.take token.stop = source.take token.stop := by
    intro token isToken
    obtain rfl : ⟨.mark .rightBrace, "\x7d", ⟨38, 4, 1⟩, 39⟩ = token := Option.some.inj isToken
    decide +kernel
  have written : source ≠ [] ∧ other ≠ [] := by decide +kernel
  have same : others.take 14 = tokens.take 14 := rfl
  have shown := failed.of_shared written.1 written.2 ⟨_, rfl, rfl⟩ ⟨_, rfl, rfl⟩ same
  exact ⟨read, otherRead, failed, (shown.2 kept).2 read otherRead⟩

/-- For tokens that end in any order the end of the last one is not enough: the value of a handler
is taken from behind the brace that closes the service, where the one source has ended and the other
has a name. And behind a fault a text can be changed to one that has no tokens, which is reported
before anything else. -/
theorem not_forall_failsAt :
    (¬∀ (file : Path) (source other : List Char) (tokens others : List Token)
      (fault : SyntaxError) (position : Nat), FailsAt file source tokens fault position →
      source ≠ [] → other ≠ [] →
      (∃ finish ∈ tokens.getLast?, finish.kind = .endOfText) →
      (∃ finish ∈ others.getLast?, finish.kind = .endOfText) →
      others.take (position + 1) = tokens.take (position + 1) →
      (∀ token ∈ tokens[position]?, other.take token.stop = source.take token.stop) →
      FailsAt file other others fault position) ∧
    ∃ (file : Path) (source more : List Char) (tokens : List Token) (fault : SyntaxError),
      tokenize source = .ok tokens ∧ FailsAt file source tokens fault 0 ∧
      parse ⟨file, source⟩ = .error fault ∧ parse ⟨file, source ++ more⟩ ≠ .error fault := by
  constructor
  · intro claim
    let tokens : List Token :=
      [⟨.keyword .service, "service", ⟨0, 1, 1⟩, 7⟩, ⟨.identifier, "s", ⟨8, 1, 9⟩, 9⟩,
       ⟨.mark .leftBrace, "\x7b", ⟨10, 1, 11⟩, 11⟩, ⟨.newline, "\\n", ⟨11, 1, 12⟩, 12⟩,
       ⟨.marker .server, "@server", ⟨12, 2, 1⟩, 19⟩, ⟨.mark .leftParen, "(", ⟨20, 2, 9⟩, 21⟩,
       ⟨.identifier, "handler", ⟨21, 2, 10⟩, 28⟩, ⟨.mark .colon, ":", ⟨28, 2, 17⟩, 29⟩,
       ⟨.identifier, "h", ⟨100, 2, 18⟩, 103⟩, ⟨.mark .rightParen, ")", ⟨29, 2, 18⟩, 30⟩,
       ⟨.newline, "\\n", ⟨30, 2, 19⟩, 31⟩, ⟨.identifier, "get", ⟨31, 3, 1⟩, 34⟩,
       ⟨.path, "/a", ⟨35, 3, 5⟩, 37⟩, ⟨.newline, "\\n", ⟨37, 3, 7⟩, 38⟩,
       ⟨.mark .rightBrace, "\x7d", ⟨38, 4, 1⟩, 39⟩, ⟨.endOfText, "", ⟨39, 4, 2⟩, 39⟩]
    let file := Path.ofString "a.api"
    let source := List.replicate 50 'a'
    let other := List.replicate 50 'a' ++ List.replicate 100 'b'
    have failed : FailsAt file source tokens ⟨.missingHandler "get" "/a", 3, 1⟩ 14 :=
      ⟨⟨[⟨.mark .rightBrace, "\x7d", ⟨38, 4, 1⟩, 39⟩], ⟨.endOfText, "", ⟨39, 4, 2⟩, 39⟩, 14⟩,
        by decide +kernel, rfl⟩
    have kept : ∀ token ∈ tokens[14]?, other.take token.stop = source.take token.stop := by
      intro token isToken
      obtain rfl : ⟨.mark .rightBrace, "\x7d", ⟨38, 4, 1⟩, 39⟩ = token := Option.some.inj isToken
      decide +kernel
    obtain ⟨stream, fails, -⟩ := claim file source other tokens tokens _ 14 failed (by decide)
      (by decide) ⟨_, rfl, rfl⟩ ⟨_, rfl, rfl⟩ rfl kept
    have parsed : (match Rule.document file other (.ofTokens tokens) with
        | .ok _ _ => true
        | .error _ _ => false) = true := by decide +kernel
    rw [fails] at parsed
    cases parsed
  · refine ⟨Path.ofString "a.api", "foo\n".toList, "\"".toList,
      [⟨.identifier, "foo", ⟨0, 1, 1⟩, 3⟩, ⟨.newline, "\\n", ⟨3, 1, 4⟩, 4⟩,
       ⟨.endOfText, "", ⟨4, 2, 1⟩, 4⟩],
      ⟨.unexpectedDeclaration ⟨.identifier, "foo", ⟨0, 1, 1⟩, 3⟩, 1, 1⟩, by decide +kernel, ?_,
      by decide +kernel, by decide +kernel⟩
    exact ⟨⟨[⟨.identifier, "foo", ⟨0, 1, 1⟩, 3⟩, ⟨.newline, "\\n", ⟨3, 1, 4⟩, 4⟩],
      ⟨.endOfText, "", ⟨4, 2, 1⟩, 4⟩, 0⟩, by decide +kernel, rfl⟩

end Document

end ApiDescription
