import ApiDescription.Grammar.Command
import ApiDescription.Proofs.Grammar.TypeTokens
import Mathlib.Data.List.TakeWhile

/-!
# Rules end

Rules may be asked for in any order, also behind faults. Whatever the order, the stream
moves forward and stays inside its tokens, and every rule ends for a reason of its own: the
bounds that make loops and types total are never what ends them. Every round of a loop that
reads an item takes a token, so that there are no more rounds than tokens, and every type
inside another one stands behind a token of it.
-/

namespace ApiDescription

/-- A stream over the tokens of a list up to an end of text, some of which have been read. -/
structure Stream.Within (others : List Token) (finish : Token) (stream : Stream) : Prop where
  ahead : stream.ahead = others.drop stream.position
  finish : stream.finish = finish
  bounded : stream.position ≤ others.length

namespace Stream.Within

variable {others : List Token} {finish : Token} {stream : Stream}

/-- All tokens are ahead of the stream over them. -/
theorem start (others : List Token) (finish : Token) : Within others finish ⟨others, finish, 0⟩ :=
  ⟨rfl, rfl, Nat.zero_le _⟩

/-- A stream has moved over as many tokens as are missing ahead. -/
theorem length_ahead (within : stream.Within others finish) :
    stream.position + stream.ahead.length = others.length := by
  have bounded := within.bounded
  rw [within.ahead, List.length_drop]
  omega

/-- Further on a stream is still inside its tokens, and no further back. -/
theorem skip (within : stream.Within others finish) (count : Nat) :
    (stream.skip count).Within others finish ∧ stream.position ≤ (stream.skip count).position := by
  have whole := within.length_ahead
  refine ⟨⟨?_, within.finish, ?_⟩, Nat.le_add_right _ _⟩
  · simp only [Stream.skip, List.length_take, within.ahead, List.drop_drop]
    rw [← within.ahead]
    rcases Nat.le_total count stream.ahead.length with inside | outside
    · rw [Nat.min_eq_left inside]
    · rw [Nat.min_eq_right outside, whole, List.drop_length, List.drop_of_length_le (by omega)]
  · simp only [Stream.skip, List.length_take]
    omega

/-- A stream inside tokens that end with the end of the text. -/
theorem ended (within : stream.Within others finish) (ends : finish.kind = .endOfText) :
    stream.Ended := by
  rw [Ended, within.finish]
  exact ends

/-- No token ahead is the end of the text. -/
theorem goesOn (within : stream.Within others finish)
    (others_goOn : ∀ token ∈ others, token.kind ≠ .endOfText) :
    ∀ token ∈ stream.ahead, token.kind ≠ .endOfText := by
  rw [within.ahead]
  exact fun token member => others_goOn token (List.mem_of_mem_drop member)

/-- At the end of the text all tokens have been read. -/
theorem position_of_atEnd (within : stream.Within others finish)
    (others_goOn : ∀ token ∈ others, token.kind ≠ .endOfText)
    (atEnd : stream.current.kind = .endOfText) : stream.position = others.length := by
  have whole := within.length_ahead
  cases ahead : stream.ahead with
  | nil => simpa [ahead] using whole
  | cons token rest =>
    rw [Stream.current_of_cons ahead] at atEnd
    exact absurd atEnd (within.goesOn others_goOn token (by rw [ahead]; exact List.mem_cons_self))

end Stream.Within

/-- The loops of the grammar. That over the routes of a service names the service in its faults. -/
inductive Loop where
  | declarations
  | properties
  | imports
  | types
  | members
  | routes (service : String)
  | notes

namespace Loop

/-- What a loop reads in a round. -/
def Item : Loop → Type
  | declarations => Declaration
  | properties => Text × Text
  | imports => Text
  | types => TypeDecl
  | members => Member
  | routes _ => Route
  | notes => RouteNote

/-- The round of a loop. -/
def round (source : List Char) : (loop : Loop) → Rule (Option loop.Item)
  | declarations => Rule.declaration? source
  | properties => Rule.property? source
  | imports => Rule.groupedImport?
  | types => Rule.groupedType?
  | members => Rule.member?
  | routes service => Rule.route? source service
  | notes => Rule.routeNote? source

open Rule

/-- A round that reads an item takes a token. -/
theorem shrinks (source : List Char) (loop : Loop) :
    ShrinksWithin Stream.Ended (loop.round source) := by
  cases loop with
  | declarations => exact shrinks_declaration? source
  | properties => exact shrinks_property? source
  | imports =>
    rw [round, groupedImport?_eq]
    exact shrinks_untilClosed forward_skipSpacing fun _ => consumes_importedFile
  | types => exact shrinks_groupedType?
  | members => exact shrinks_member?
  | routes service => exact shrinks_route? source service
  | notes => exact shrinks_routeNote? source

/-- A round moves forward, whether it reads an item or not. -/
theorem forward (source : List Char) (loop : Loop) : Forward (loop.round source) := by
  cases loop with
  | declarations => exact forward_declaration? source
  | properties =>
    rw [round, property?_eq]
    exact forward_untilClosed forward_skipSpacing fun _ => (consumes_property source).forward
  | imports =>
    rw [round, groupedImport?_eq]
    exact forward_untilClosed forward_skipSpacing fun _ => consumes_importedFile.forward
  | types =>
    rw [round, groupedType?_eq]
    exact forward_untilClosed forward_docs fun docs => (consumes_typeBody docs).forward
  | members =>
    rw [round, member?_eq]
    exact forward_untilClosed forward_docs fun docs => (consumes_member docs).forward
  | routes service =>
    rw [round, route?_eq]
    exact forward_untilClosed forward_docs fun docs => (consumes_route source docs).forward
  | notes => exact forward_routeNote? source

end Loop

namespace Rule

variable {α β : Type}

/-- A rule whose answer is named moves forward as it did. -/
theorem Forward.map {rule : Rule α} (forward : Forward rule) (f : α → β) :
    Forward (f <$> rule) := by
  rw [map_eq_pure_bind]
  exact forward.bind fun _ => .pure _

/-- A rule whose answer does not matter moves forward as it did. -/
theorem Forward.done {rule : Rule α} (forward : Forward rule) (answer : β) :
    Forward (rule *> Pure.pure answer) := by
  rw [seqRight_eq_bind]
  exact forward.bind fun _ => .pure _

theorem forward_document (file : Path) (source : List Char) : Forward (document file source) :=
  .bind ((forward_declaration? source).many (shrinks_declaration? source)) fun _ => .pure _

end Rule

namespace Command

open Rule

/-- Whatever is asked for, the stream moves forward. -/
theorem forward_rule (source : Source) (command : Command) : Forward (command.rule source) := by
  cases command with
  | current => exact .map .current _
  | advance => exact .map .advance _
  | sees kinds => exact .map (.seesAny kinds) _
  | expect kind => exact .map (forward_expect kind) _
  | expectName => exact .map consumes_expectName.forward _
  | skipSpacing => exact .done forward_skipSpacing _
  | docs => exact .map forward_docs _
  | trailingComment line => exact .map (forward_trailingComment line) _
  | lineEnd => exact .done forward_lineEnd _
  | propertyValue => exact .map (.propertyValue source.text) _
  | propertyBlock => exact .map (consumes_propertyBlock source.text).forward _
  | version => exact .map consumes_version.forward _
  | info => exact .map (consumes_info source.text).forward _
  | imports => exact .map consumes_imports.forward _
  | typeDecls docs => exact .map (consumes_typeDecls docs).forward _
  | typeBody docs => exact .map (consumes_typeBody docs).forward _
  | members => exact .map forward_members _
  | member docs => exact .map (consumes_member docs).forward _
  | typeExpr => exact .map consumes_typeExpr.forward _
  | serviceGroup => exact .map (consumes_serviceGroup source.text).forward _
  | route docs => exact .map (consumes_route source.text docs).forward _
  | bodyType => exact .map forward_bodyType _
  | document => exact .map (forward_document source.file source.text) _

/-- The stream behind a command is that behind its rule. -/
theorem run_snd (source : Source) (command : Command) (stream : Stream) :
    (command.run source stream).2 = streamBehind (command.rule source stream) := by
  rw [run]
  cases command.rule source stream <;> rfl

variable {source : Source} {others : List Token} {finish : Token} {stream : Stream}

/-- A command leaves the stream inside its tokens, and no further back. -/
theorem within_run (within : stream.Within others finish) (ends : finish.kind = .endOfText)
    (command : Command) :
    (command.run source stream).2.Within others finish ∧
      stream.position ≤ (command.run source stream).2.position := by
  obtain ⟨count, behind⟩ := forward_rule source command stream (within.ended ends)
  rw [run_snd, behind]
  exact within.skip count

/-- Commands leave the stream inside its tokens. -/
theorem within_runAll (within : stream.Within others finish) (ends : finish.kind = .endOfText)
    (commands : List Command) : (runAll source commands stream).Within others finish := by
  induction commands generalizing stream with
  | nil => exact within
  | cons command commands inductionHypothesis =>
    exact inductionHypothesis (within_run within ends command).1

/-- What holds on a stream over the tokens of a list up to an end of text: rules move forward and
end by themselves, whichever of them is asked for next. -/
structure Advancing (source : Source) (others : List Token) (finish : Token) (stream : Stream) :
    Prop where
  /-- The stream has not moved behind the end of the text. -/
  within : stream.Within others finish
  /-- Whatever is asked for, answered or not, the stream moves forward, at most to the end. -/
  forward : ∀ command : Command, stream.position ≤ (command.run source stream).2.position ∧
    (command.run source stream).2.position ≤ others.length
  /-- A token of a wrong kind is not taken. -/
  expect : ∀ kind fault next, Command.run source (.expect kind) stream = (.error fault, next) →
    next = stream
  /-- A token that is no name is not taken where a name has to be. -/
  expectName : ∀ fault next, Command.run source .expectName stream = (.error fault, next) →
    next = stream
  /-- Looking at a token does not take it. -/
  sees : ∀ kinds, (Command.run source (.sees kinds) stream).2 = stream
  /-- Where no comment stands on a line, nothing is taken. -/
  trailingComment : ∀ line,
    ¬(stream.current.kind = .comment ∧ stream.current.start.line = line) →
      Command.run source (.trailingComment line) stream = (.ok (.text []), stream)
  /-- A round that does not end its loop takes at least one token. -/
  rounds : ∀ (loop : Loop) item next, loop.round source.text stream = .ok (some item) next →
    stream.position < next.position
  /-- A loop ends by the answer or the fault of one of its rounds, behind no more rounds than tokens
  were taken in them. -/
  loops : ∀ loop : Loop, ∃ items last, Rounds (loop.round source.text) stream items last ∧
    stream.position + items.length ≤ last.position ∧ last.position ≤ others.length ∧
      ((∃ next, loop.round source.text last = .ok none next ∧
          many (loop.round source.text) stream = .ok items next) ∨
        ∃ fault next, loop.round source.text last = .error fault next ∧
          many (loop.round source.text) stream = .error fault next)
  /-- Docs are read token by token, up to the first token that is no spacing. -/
  docs : ∃ run later next, stream.ahead = run ++ later ∧
    Rule.docs stream = .ok (docsOfRun run [] 0) next ∧ next.ahead = later ∧
    next.position = stream.position + run.length ∧ (∀ token ∈ run, token.isSpacing = true) ∧
    next.current.isSpacing = false
  /-- Types are nested at most as deeply as there are tokens left. -/
  types : ∀ depth, others.length ≤ stream.position + depth →
    Rule.typeWithin depth stream = Rule.typeExpr stream
  /-- A document is read to the end of the text. -/
  document : ∀ answer next, Command.run source .document stream = (.ok answer, next) →
    next.position = others.length

/-- A command whose rule gives an answer a name does what the rule does. -/
theorem run_of_rule_eq {α : Type} {command : Command} {rule : Rule α} {f : α → Answer}
    (named : command.rule source = f <$> rule) :
    command.run source stream =
      match rule stream with
      | .ok value next => (.ok (f value), next)
      | .error fault next => (.error fault, next) := by
  rw [run, named, map_eq_pure_bind, bind_apply]
  cases rule stream <;> rfl

/-- The loops of the grammar end inside the tokens, behind no more rounds than tokens were taken. -/
theorem exists_rounds_of_within (within : stream.Within others finish)
    (ends : finish.kind = .endOfText) (text : List Char) (loop : Loop) :
    ∃ items last, Rounds (loop.round text) stream items last ∧
      stream.position + items.length ≤ last.position ∧ last.position ≤ others.length ∧
      ((∃ next, loop.round text last = .ok none next ∧
          many (loop.round text) stream = .ok items next) ∨
        ∃ fault next, loop.round text last = .error fault next ∧
          many (loop.round text) stream = .error fault next) := by
  have ended := within.ended ends
  obtain ⟨last, run, answered⟩ := exists_rounds_collect (loop.shrinks text) ended
  have fewer := (run.length_le (loop.shrinks text) ended).1
  obtain ⟨count, rfl⟩ := (loop.forward text).rounds run ended
  have lastWithin := (within.skip count).1
  have whole := within.length_ahead
  have lastWhole := lastWithin.length_ahead
  refine ⟨_, _, run, ?_, lastWithin.bounded, ?_⟩
  · simp only [remaining] at fewer
    omega
  · cases found : (collect (loop.round text) stream).fault with
    | none =>
      rw [found] at answered
      exact .inl ⟨_, answered, by simp only [many, found]⟩
    | some fault =>
      rw [found] at answered
      exact .inr ⟨fault, _, answered, by simp only [many, found]⟩

/-- A round that reads an item takes a token. -/
theorem position_lt_of_round (within : stream.Within others finish)
    (ends : finish.kind = .endOfText) {text : List Char} {loop : Loop} {item : loop.Item}
    {next : Stream} (read : loop.round text stream = .ok (some item) next) :
    stream.position < next.position := by
  have ended := within.ended ends
  have fewer := (loop.shrinks text stream item next ended read).1
  obtain ⟨count, rfl⟩ := (loop.forward text).of_ok ended read
  have whole := within.length_ahead
  have nextWhole := (within.skip count).1.length_ahead
  simp only [remaining] at fewer
  omega

/-- Docs take the run of spacing ahead token by token, and stop in front of another token. -/
theorem exists_run_of_docs (ended : stream.Ended) :
    ∃ run later next, stream.ahead = run ++ later ∧
      Rule.docs stream = .ok (docsOfRun run [] 0) next ∧ next.ahead = later ∧
      next.position = stream.position + run.length ∧ (∀ token ∈ run, token.isSpacing = true) ∧
      next.current.isSpacing = false := by
  have behind := stream.ahead_skip_takeWhile Token.isSpacing
  refine ⟨stream.ahead.takeWhile Token.isSpacing, stream.ahead.dropWhile Token.isSpacing, _,
    List.takeWhile_append_dropWhile.symm, docs_apply stream, behind, ?_,
    fun token => List.mem_takeWhile_imp, ?_⟩
  · have inside : (stream.ahead.takeWhile Token.isSpacing).length ≤ stream.ahead.length :=
      (List.takeWhile_prefix _).length_le
    simp only [Stream.skip, List.length_take]
    omega
  · cases left : stream.ahead.dropWhile Token.isSpacing with
    | nil =>
      rw [Stream.current_of_nil (behind.trans left)]
      have kind : (stream.skip (stream.ahead.takeWhile Token.isSpacing).length).finish.kind =
          .endOfText := ended
      simp [Token.isSpacing, kind]
    | cons token rest =>
      rw [Stream.current_of_cons (behind.trans left)]
      have first := List.head?_dropWhile_not Token.isSpacing stream.ahead
      rw [left] at first
      simpa using first

/-- A document that has been read takes all tokens. -/
theorem position_of_run_document (within : stream.Within others finish)
    (goesOn : ∀ token ∈ others, token.kind ≠ .endOfText) (ends : finish.kind = .endOfText)
    {answer : Answer} {next : Stream}
    (read : Command.run source .document stream = (.ok answer, next)) :
    next.position = others.length := by
  have nextWithin : (Command.run source .document stream).2.Within others finish :=
    (within_run within ends .document).1
  rw [read] at nextWithin
  refine nextWithin.position_of_atEnd goesOn ?_
  rw [run_of_rule_eq (show Command.rule source .document = _ from rfl)] at read
  cases readDocument : Rule.document source.file source.text stream with
  | error fault behind => simp [readDocument] at read
  | ok document behind =>
    rw [readDocument] at read
    obtain rfl : behind = next := (Prod.mk.inj read).2
    obtain ⟨declarations, behind, readAll, answered⟩ := bind_eq_ok_iff.mp readDocument
    cases answered
    obtain ⟨last, -, none⟩ :=
      (many_eq_ok_iff (shrinks_declaration? source.text) (within.ended ends)).mp readAll
    exact (atEnd_of_none none).2

/-- Commands in any order, failed ones included, leave a stream on which every rule moves forward
and ends. -/
theorem advancing_runAll {others : List Token} {finish : Token}
    (goesOn : ∀ token ∈ others, token.kind ≠ .endOfText) (ends : finish.kind = .endOfText)
    (source : Source) (commands : List Command) :
    Advancing source others finish (runAll source commands (.ofTokens (others ++ [finish]))) := by
  rw [Stream.ofTokens_append goesOn ends]
  have within : (runAll source commands ⟨others, finish, 0⟩).Within others finish :=
    within_runAll (.start others finish) ends commands
  generalize runAll source commands ⟨others, finish, 0⟩ = stream at within
  have ended := within.ended ends
  constructor
  case within => exact within
  case forward =>
    intro command
    obtain ⟨inside, further⟩ := within_run within ends command
    exact ⟨further, inside.bounded⟩
  case expect =>
    intro kind fault next failed
    rw [run_of_rule_eq (show Command.rule source (.expect kind) = _ from rfl), expect_apply]
      at failed
    by_cases found : stream.current.kind = kind
    · simp [found] at failed
    · rw [if_neg found] at failed
      exact (Prod.mk.inj failed).2.symm
  case expectName =>
    intro fault next failed
    rw [run_of_rule_eq (show Command.rule source .expectName = _ from rfl), expectName_apply]
      at failed
    by_cases found : stream.current.isName = true
    · simp [found] at failed
    · rw [if_neg found] at failed
      exact (Prod.mk.inj failed).2.symm
  case sees => exact fun kinds => rfl
  case trailingComment =>
    intro line other
    rw [run_of_rule_eq (show Command.rule source (.trailingComment line) = _ from rfl),
      trailingComment_apply, if_neg other]
  case rounds => exact fun loop item next read => position_lt_of_round within ends read
  case loops => exact exists_rounds_of_within within ends source.text
  case docs => exact exists_run_of_docs ended
  case types =>
    intro depth enough
    have whole := within.length_ahead
    have onLine : lineLength stream ≤ stream.ahead.length := (List.takeWhile_prefix _).length_le
    exact typeWithin_eq_typeExpr ended (by omega)
  case document =>
    intro answer next read
    exact position_of_run_document within goesOn ends read

/-- A struct without an end, asked for behind a type and a brace that are not there. -/
theorem advancing_runAll_unterminated :
    let source : Source := ⟨Path.ofString "a.api", "type A \x7b // c".toList⟩
    let others : List Token :=
      [⟨.keyword .type, "type", ⟨0, 1, 1⟩, 4⟩, ⟨.identifier, "A", ⟨5, 1, 6⟩, 6⟩,
       ⟨.mark .leftBrace, "\x7b", ⟨7, 1, 8⟩, 8⟩, ⟨.comment, "// c", ⟨9, 1, 10⟩, 13⟩]
    let finish : Token := ⟨.endOfText, "", ⟨13, 1, 14⟩, 13⟩
    let stream := runAll source [.typeExpr, .expect (.mark .rightBrace), .document]
      (.ofTokens (others ++ [finish]))
    (∀ token ∈ others, token.kind ≠ .endOfText) ∧ finish.kind = .endOfText ∧
      stream.position = 4 ∧ Advancing source others finish stream := by
  intro source others finish stream
  have goesOn : ∀ token ∈ others, token.kind ≠ .endOfText := by decide
  exact ⟨goesOn, rfl, by decide +kernel, advancing_runAll goesOn rfl source _⟩

end Command

end ApiDescription
