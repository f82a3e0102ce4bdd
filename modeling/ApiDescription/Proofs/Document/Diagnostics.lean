import ApiDescription.Input
import ApiDescription.Proofs.Document.Joining
import ApiDescription.Proofs.Token.Placement

/-!
# What a diagnostic shows

Every fault of a description is reported at a place of its text: the scanner counts what it
passes, and the rules report faults only at tokens. The lines around that place are shown
as they stand in the text, each behind its own number, and the marker stands below the
character the fault is about. Two computations have to agree on the first line shown, the
one that cuts the lines out of the text and the one that numbers them.
-/

namespace ApiDescription

/-- The lines of a text behind some characters: as many lines are complete as line feeds were
passed, and the characters passed on the current line are its first ones. -/
theorem exists_lines_after (passed : List Char) :
    ∃ above part, Location.start.after passed = ⟨passed.length, above.length + 1, part.length + 1⟩ ∧
      ∀ more rest below, Text.lines more = rest :: below →
        Text.lines (passed ++ more) = above ++ (part ++ rest) :: below := by
  induction passed using List.reverseRecOn with
  | nil => exact ⟨[], [], rfl, fun more rest below lines => lines⟩
  | append_singleton passed c inductionHypothesis =>
    obtain ⟨above, part, place, cut⟩ := inductionHypothesis
    rw [Location.after_append, place]
    by_cases feed : c = '\n'
    · refine ⟨above ++ [part], [], by simp [Location.next, feed], fun more rest below lines => ?_⟩
      have behind : Text.lines (c :: more) = [] :: rest :: below := by
        rw [← lines, feed]
        rfl
      simp [cut (c :: more) [] (rest :: below) behind]
    · refine ⟨above, part ++ [c], by simp [Location.next, feed], fun more rest below lines => ?_⟩
      have behind : Text.lines (c :: more) = (c :: rest) :: below := by
        simp only [Text.lines] at lines ⊢
        simp [Text.splitOn, feed, lines]
      simp [cut (c :: more) (c :: rest) below behind]

/-- The place of an offset is in a line of the text, behind some characters of it. -/
theorem exists_line_of_offset (text : List Char) (offset : Nat) :
    ∃ above part rest below, Text.lines text = above ++ (part ++ rest) :: below ∧
      (Location.ofOffset text offset).line = above.length + 1 ∧
      (Location.ofOffset text offset).column = part.length + 1 := by
  obtain ⟨above, part, place, cut⟩ := exists_lines_after (text.take offset)
  obtain ⟨rest, below, lines⟩ :=
    List.exists_cons_of_ne_nil (Text.splitOn_ne_nil '\n' (text.drop offset))
  have whole := cut (text.drop offset) rest below lines
  rw [List.take_append_drop] at whole
  rw [Location.start_after, Location.ofOffset_length] at place
  refine ⟨above, part, rest, below, whole, ?_, ?_⟩
  · exact congrArg Location.line place
  · exact congrArg Location.column place

/-- Tokens in other columns, the column of a place being a function of line and column. -/
def Relocation.ofColumns (column : Nat → Nat → Nat) : Relocation where
  token found :=
    { found with start := { found.start with
        column := column found.start.line found.start.column } }
  line := id
  fault failure :=
    { failure with
      cause := failure.cause.map fun found =>
        { found with start := { found.start with
            column := column found.start.line found.start.column } }
      column := column failure.line failure.column }
  kind_token _ := rfl
  value_token _ := rfl
  line_token _ := rfl
  line_injective := Function.injective_id
  fault_located _ _ := rfl

namespace Rule

/-- Values of properties do not depend on columns. -/
theorem valueOfTokens_ofColumns (source : List Char) (column : Nat → Nat → Nat)
    (tokens : List Token) :
    valueOfTokens source (tokens.map (Relocation.ofColumns column).token) =
      valueOfTokens source tokens := by
  cases tokens with
  | nil => rfl
  | cons token rest =>
    have stop : ((rest.map (Relocation.ofColumns column).token).getLastD
        ((Relocation.ofColumns column).token token)).stop = (rest.getLastD token).stop := by
      rw [List.getLastD_map]
      rfl
    have texts : (rest.map (Relocation.ofColumns column).token).map Token.text =
        rest.map Token.text := by
      rw [List.map_map]
      rfl
    simp only [List.map_cons, valueOfTokens, stop, texts]
    simp [Relocation.ofColumns, Token.text]

/-- A fault among the declarations is reported at a token of the stream: rules do not know in which
columns tokens stand, and if every other column is moved, the tokens and therefore the fault stay
where they are. -/
theorem exists_token_of_error {source : List Char} {stream next : Stream} {fault : SyntaxError}
    (failed : many (declaration? source) stream = .error fault next) :
    ∃ token ∈ stream.finish :: stream.ahead,
      fault.line = token.start.line ∧ fault.column = token.start.column := by
  let known (line column : Nat) : Prop :=
    ∃ token ∈ stream.finish :: stream.ahead, line = token.start.line ∧ column = token.start.column
  have (line column : Nat) : Decidable (known line column) := inferInstanceAs (Decidable (∃ _ ∈ _, _))
  let column (line column : Nat) : Nat := if known line column then column else column + 1
  let moved := Relocation.ofColumns column
  have stays : ∀ token ∈ stream.finish :: stream.ahead, moved.token token = token := by
    intro token member
    have isKnown : known token.start.line token.start.column := ⟨token, member, rfl, rfl⟩
    simp [moved, Relocation.ofColumns, column, isKnown]
  have same : moved.stream 0 stream = stream := by
    have ahead : stream.ahead.map moved.token = stream.ahead :=
      (List.map_congr_left fun token member => stays token (List.mem_cons_of_mem _ member)).trans
        (List.map_id _)
    rw [Relocation.stream, ahead, stays _ List.mem_cons_self, Nat.add_zero]
  have declared : moved.Relocates 0 id (many (declaration? source)) (many (declaration? source)) :=
    .declarations (valueOfTokens_ofColumns source column)
  have relocated := declared stream
  rw [show (Relocation.ofColumns column).stream 0 stream = stream from same, failed] at relocated
  have fixed : fault = moved.fault fault := (EStateM.Result.error.inj relocated).1
  have sameColumn : fault.column = column fault.line fault.column := congrArg SyntaxError.column fixed
  by_cases isKnown : known fault.line fault.column
  · exact isKnown
  · rw [show column fault.line fault.column = fault.column + 1 from if_neg isKnown] at sameColumn
    omega

end Rule

/-- A fault of the scanner is reported at a place of the text. -/
theorem exists_place_of_tokenize_error {text : List Char} {fault : SyntaxError}
    (failed : tokenize text = .error fault) :
    ∃ cause offset, fault = .located cause (.ofOffset text offset) := by
  have readAll : (Scanner.ofText text).readAll.1 = .error fault := by
    unfold tokenize at failed
    unfold Scanner.readAll Scanner.ofText
    cases found : (Scan.tokens (.ofText text)).fault with
    | none => simp [found] at failed
    | some other =>
      simp only [found] at failed ⊢
      rw [Except.error.inj failed]
  obtain ⟨-, cause, offset, -, located, -⟩ := (Scanner.kept_ofText text).readAll.2 fault readAll
  exact ⟨cause, offset, located⟩

/-- Every token of a text, its end included, stands at a place of the text. -/
theorem exists_place_of_tokenize {text : List Char} {tokens : List Token}
    (lexed : tokenize text = .ok tokens) :
    ∀ token ∈ tokens, token.start = .ofOffset text token.start.offset := by
  have readAll : (Scanner.ofText text).readAll.2.tokens = tokens := by
    unfold tokenize at lexed
    unfold Scanner.readAll Scanner.ofText
    cases found : (Scan.tokens (.ofText text)).fault with
    | none =>
      simp only [found] at lexed ⊢
      exact Except.ok.inj lexed
    | some other => simp [found] at lexed
  have kept := (Scanner.kept_ofText text).readAll.1.tokens
  rw [readAll] at kept
  exact fun token member => (kept token member).2

/-- The lines of a snippet: at most two above a line, the line, and at most two below it. -/
theorem snippet_eq {text current : List Char} {above below : List (List Char)}
    (lines : Text.lines text = above ++ current :: below) :
    snippet text (above.length + 1 : Nat) snippetRadius =
      ['\n'].intercalate (above.drop (above.length - 2) ++ current :: below.take 2) := by
  have first : (((above.length + 1 : Nat) : Int) - 1 - (snippetRadius : Int)).toNat =
      above.length - 2 := by
    simp only [snippetRadius]
    omega
  have bounded : ¬(min ((above ++ current :: below).length : Int)
      (((above.length + 1 : Nat) : Int) + (snippetRadius : Int)) < 0) := by
    omega
  have stop : (min ((above ++ current :: below).length : Int)
      (((above.length + 1 : Nat) : Int) + (snippetRadius : Int))).toNat =
      above.length + (1 + min below.length 2) := by
    simp only [snippetRadius, List.length_append, List.length_cons]
    omega
  have taken : (above ++ current :: below).take (above.length + (1 + min below.length 2)) =
      above ++ current :: below.take 2 := by
    rw [List.take_length_add_append, Nat.add_comm 1, List.take_succ_cons, Nat.min_comm,
      ← List.take_eq_take_min]
  simp only [snippet, lines, if_neg bounded, first, stop, taken]
  rw [List.drop_append_of_le_length (Nat.sub_le _ _)]

/-- The lines of a snippet are lines of the text. -/
theorem lines_snippet {text current : List Char} {above below : List (List Char)}
    (lines : Text.lines text = above ++ current :: below) :
    Text.lines (snippet text (above.length + 1 : Nat) snippetRadius) =
      above.drop (above.length - 2) ++ current :: below.take 2 := by
  rw [snippet_eq lines]
  refine Text.splitOn_intercalate '\n' (fun part member => ?_) (by simp)
  have isLine : part ∈ Text.splitOn '\n' text → '\n' ∉ part := Text.not_mem_of_mem_splitOn
  rw [show Text.splitOn '\n' text = above ++ current :: below from lines] at isLine
  apply isLine
  rcases List.mem_append.mp member with above | member
  · exact List.mem_append_left _ (List.mem_of_mem_drop above)
  · rcases List.mem_cons.mp member with rfl | below
    · exact List.mem_append_right _ List.mem_cons_self
    · exact List.mem_append_right _ (List.mem_cons_of_mem _ (List.mem_of_mem_take below))

/-- There is always something to show: a snippet without characters is that of no characters. -/
theorem snippet_ne_empty {text current : List Char} {above below : List (List Char)}
    (lines : Text.lines text = above ++ current :: below) (goesOn : text ≠ []) :
    String.ofList (snippet text (above.length + 1 : Nat) snippetRadius) ≠ "" := by
  intro empty
  have none : snippet text (above.length + 1 : Nat) snippetRadius = [] := by
    rw [← String.toList_ofList (l := snippet text _ _), empty]
    rfl
  have one := lines_snippet lines
  rw [none, show Text.lines [] = [[]] from rfl] at one
  have lengths := congrArg List.length one
  simp only [List.length_cons, List.length_nil, List.length_append, List.length_drop,
    List.length_take] at lengths
  obtain rfl : above = [] := List.length_eq_zero_iff.mp (by omega)
  obtain rfl : below = [] := List.length_eq_zero_iff.mp (by omega)
  have blank : current = [] := by simpa using one.symm
  have whole := Text.intercalate_splitOn '\n' text
  rw [show Text.splitOn '\n' text = [] ++ current :: [] from lines, blank] at whole
  exact goesOn whole.symm

namespace Context

/-- The lines from one number to another, each behind its own number. -/
def shown (all : List (List Char)) (first last : Nat) : List (List Char) :=
  (List.range' first (last + 1 - first)).map fun number : Nat =>
    margin number ++ all.getD (number - 1) []

/-- Below the reported line nothing is marked. -/
theorem numbered_of_lt {line column number : Int} (sources : List (List Char))
    (behind : line < number) :
    numbered line column number sources =
      sources.mapIdx fun index source => margin (number + index) ++ source := by
  induction sources generalizing number with
  | nil => rfl
  | cons source sources inductionHypothesis =>
    have further : line < number + 1 := by omega
    rw [numbered, if_neg (by omega), inductionHypothesis further, List.mapIdx_cons]
    simp [Int.add_assoc, Int.add_comm 1]

/-- The marker stands below the reported line, and nowhere else. -/
theorem numbered_append {line column number : Int} {before : List (List Char)}
    (source : List Char) (behind : List (List Char)) (reported : line = number + before.length) :
    numbered line column number (before ++ source :: behind) =
      ((before ++ [source]).mapIdx fun index source => margin (number + index) ++ source) ++
        (List.replicate ((margin line).length + column - 1).toNat ' ' ++ "^^^".toList) ::
        behind.mapIdx fun index source => margin (line + 1 + index) ++ source := by
  induction before generalizing number with
  | nil =>
    have here : number = line := by simpa using reported.symm
    rw [List.nil_append, numbered, if_pos here, numbered_of_lt behind (by omega), here]
    simp
  | cons other before inductionHypothesis =>
    have further : line = number + 1 + before.length := by
      rw [reported, List.length_cons]
      push_cast
      omega
    rw [List.cons_append, numbered, if_neg (by omega), inductionHypothesis further,
      List.cons_append, List.mapIdx_cons]
    simp [Int.add_assoc, Int.add_comm 1]

/-- The lines between two numbers are those cut out there. -/
theorem mapIdx_margin {all : List (List Char)} {first last : Nat} (within : last ≤ all.length)
    {number : Int} (numbered : number = first + 1) :
    ((all.take last).drop first).mapIdx (fun index source => margin (number + index) ++ source) =
      shown all (first + 1) last := by
  apply List.ext_getElem
  · simp [shown]
    omega
  · intro index isIndex _
    have inside : first + index < all.length := by
      simp at isIndex
      omega
    have same : number + index = ((first + 1 + index : Nat) : Int) := by
      push_cast
      omega
    have line : first + 1 + index - 1 = first + index := by omega
    simp [shown, same, line, inside]

/-- The lines of a snippet are numbered as they are in the text. -/
theorem numbered_of_lines {all above below : List (List Char)} {current : List Char}
    (lines : all = above ++ current :: below) {line : Nat} (reported : line = above.length + 1)
    (column : Int) :
    numbered line column (max 1 (line - snippetRadius))
        (above.drop (above.length - 2) ++ current :: below.take 2) =
      shown all (max 1 (line - 2)) line ++
        (List.replicate ((margin line).length + column - 1).toNat ' ' ++ "^^^".toList) ::
        shown all (line + 1) (min all.length (line + 2)) := by
  have length : all.length = above.length + 1 + below.length := by
    rw [lines, List.length_append, List.length_cons]
    omega
  have number : max 1 ((line : Int) - snippetRadius) = ((above.length - 2 : Nat) : Int) + 1 := by
    simp only [snippetRadius]
    omega
  have first : max 1 (line - 2) = above.length - 2 + 1 := by omega
  have below_line : (line : Int) =
      ((above.length - 2 : Nat) : Int) + 1 + (above.drop (above.length - 2)).length := by
    rw [List.length_drop]
    omega
  have upper : above.drop (above.length - 2) ++ [current] =
      (all.take line).drop (above.length - 2) := by
    rw [lines, reported, List.take_length_add_append, List.take_succ_cons, List.take_zero,
      List.drop_append_of_le_length (Nat.sub_le _ _)]
  have lower : below.take 2 = (all.take (min all.length (line + 2))).drop line := by
    have more : min all.length (line + 2) = above.length + (1 + min 2 below.length) := by omega
    rw [more, lines, reported, List.take_length_add_append, Nat.add_comm 1, List.take_succ_cons,
      ← List.take_eq_take_min, List.drop_length_add_append]
    rfl
  rw [numbered_append current (below.take 2) (number ▸ below_line), upper, lower,
    mapIdx_margin (by omega) number, mapIdx_margin (Nat.min_le_left _ _) rfl, first]

/-- A snippet is shown below the place. -/
theorem format_of_snippet {context : Context} {source : List Char}
    (found : context.snippet = some (String.ofList source)) (some : String.ofList source ≠ "") :
    context.format =
      context.file.toString ++ ":" ++ toString context.line ++ ":" ++ toString context.column ++
        "\n" ++ String.ofList (['\n'].intercalate (numbered context.line context.column
          (max 1 (context.line - snippetRadius)) (Text.lines source))) := by
  unfold format
  rw [found]
  dsimp only
  split
  · next none => exact nomatch none
  · next none => exact absurd (Option.some.inj none) some
  · next shown _ same =>
    rw [← Option.some.inj same, String.toList_ofList]

end Context

/-- A diagnostic that points at a fault of a source. -/
structure Diagnostic.PointsAt (diagnostic : Diagnostic) (source : Source) (fault : SyntaxError) : Prop where
  /-- The fault is reported in one of the lines of the source. -/
  line : 1 ≤ fault.line ∧ fault.line ≤ (Text.lines source.text).length
  /-- It is reported at a character of the line, or right behind the line. -/
  column : 1 ≤ fault.column ∧
    fault.column ≤ ((Text.lines source.text).getD (fault.line - 1) []).length + 1
  /-- The place is reported together with lines of the source, which are not dropped. -/
  context : ∃ shown ≠ "", diagnostic.context = some
    { file := source.file, line := fault.line, column := fault.column, snippet := some shown }
  /-- The text says where the fault is, shows the lines from two above it to two below it as far as
  there are any, and ends with the message. One line more stands below that of the fault: as many
  blanks as there are characters in front of the one the fault is about, and the marker. -/
  text :
    let all := Text.lines source.text
    let current := all.getD (fault.line - 1) []
    let before := Context.margin fault.line ++ current.take (fault.column - 1)
    let marker := List.replicate before.length ' ' ++ "^^^".toList
    diagnostic.text =
      source.file.toString ++ ":" ++ toString fault.line ++ ":" ++ toString fault.column ++ "\n" ++
        String.ofList (['\n'].intercalate
          (Context.shown all (max 1 (fault.line - 2)) fault.line ++ marker ::
            Context.shown all (fault.line + 1) (min all.length (fault.line + 2)))) ++
        "\n" ++ fault.message

namespace Document

/-- A fault of a description is reported at a place of its text. -/
theorem exists_place_of_parse_error {source : Source} {fault : SyntaxError}
    (failed : parse source = .error fault) :
    ∃ offset, fault.line = (Location.ofOffset source.text offset).line ∧
      fault.column = (Location.ofOffset source.text offset).column := by
  rw [parse_eq] at failed
  cases lexed : tokenize source.text with
  | error found =>
    rw [lexed] at failed
    cases failed
    obtain ⟨cause, offset, rfl⟩ := exists_place_of_tokenize_error lexed
    exact ⟨offset, rfl, rfl⟩
  | ok tokens =>
    rw [lexed] at failed
    dsimp only at failed
    cases read : many (Rule.declaration? source.text) (.ofTokens tokens) with
    | ok declarations next =>
      rw [read] at failed
      exact nomatch failed
    | error found next =>
      rw [read] at failed
      cases failed
      obtain ⟨token, member, line, column⟩ := Rule.exists_token_of_error read
      obtain ⟨others, finish, rfl, ends, known⟩ := exists_stream_of_tokenize lexed
      rw [Stream.ofTokens_append (fun token isOther => (known token isOther).1.1) ends] at member
      have inText : token ∈ others ++ [finish] := by
        rcases List.mem_cons.mp member with rfl | member
        · exact List.mem_append_right _ (List.mem_singleton_self _)
        · exact List.mem_append_left _ member
      have place := exists_place_of_tokenize lexed token inText
      exact ⟨token.start.offset, by rw [line, ← place], by rw [column, ← place]⟩

/-- A text that is no description has characters. -/
theorem text_ne_nil_of_parse_error {source : Source} {fault : SyntaxError}
    (failed : parse source = .error fault) : source.text ≠ [] := by
  intro none
  have lexed : tokenize source.text = .ok [Token.finish .start] := by
    rw [none]
    decide
  have atEnd : (Stream.ofTokens [Token.finish .start]).ahead = [] := rfl
  have read := Rule.many_declaration?_nil source.text atEnd rfl
  rw [parse_eq, lexed] at failed
  dsimp only at failed
  rw [read] at failed
  exact nomatch failed

/-- A diagnostic about a place in a line shows that line and those around it. -/
theorem pointsAt_of_lines {source : Source} {fault : SyntaxError} {part rest : List Char}
    {above below : List (List Char)}
    (lines : Text.lines source.text = above ++ (part ++ rest) :: below)
    (line : fault.line = above.length + 1) (column : fault.column = part.length + 1)
    (goesOn : source.text ≠ []) :
    (fault.diagnostic source.file (some source.text)).PointsAt source fault := by
  have current : (Text.lines source.text).getD (fault.line - 1) [] = part ++ rest := by
    rw [lines, line]
    simp
  have count : (Text.lines source.text).length = above.length + 1 + below.length := by
    rw [lines]
    simp
    omega
  have some := snippet_ne_empty lines goesOn
  have cut := lines_snippet lines
  rw [← line] at some cut
  constructor
  case line => omega
  case column =>
    rw [current, List.length_append]
    omega
  case context => exact ⟨_, some, rfl⟩
  case text =>
    intro all currentLine before marker
    have marked : (List.replicate ((Context.margin fault.line).length + (fault.column : Int) - 1).toNat
        ' ' ++ "^^^".toList) = marker := by
      have length : ((Context.margin fault.line).length + (fault.column : Int) - 1).toNat =
          before.length := by
        have inLine : (currentLine.take (fault.column - 1)).length = fault.column - 1 := by
          rw [show currentLine = part ++ rest from current, List.length_take, List.length_append]
          omega
        rw [show before.length = _ from List.length_append, inLine]
        omega
      rw [length]
    have numbered := Context.numbered_of_lines lines line fault.column
    rw [← cut, marked] at numbered
    rw [Diagnostic.text, SyntaxError.diagnostic]
    dsimp only [Option.map_some]
    rw [Context.format_of_snippet rfl some, numbered]
    rfl

/-- Whatever is wrong with a description is reported at its place, with the lines around it. -/
theorem pointsAt_of_ofSource {source : Source} {error : InputError}
    (failed : (ofSource source).result = .error error) :
    ∃ fault, parse source = .error fault ∧ error = .notDescription source fault ∧
      error.diagnostic.PointsAt source fault := by
  cases parsed : parse source with
  | ok document =>
    rw [ofSource, show (read source).result = .ok document from parsed] at failed
    exact nomatch failed
  | error fault =>
    rw [ofSource, show (read source).result = .error fault from parsed] at failed
    cases failed
    obtain ⟨offset, line, column⟩ := exists_place_of_parse_error parsed
    obtain ⟨above, part, rest, below, lines, inLine, inColumn⟩ :=
      exists_line_of_offset source.text offset
    exact ⟨fault, rfl, rfl, pointsAt_of_lines lines (line.trans inLine) (column.trans inColumn)
      (text_ne_nil_of_parse_error parsed)⟩

/-- A fault at the end of a text, below two lines of which one is empty. -/
theorem pointsAt_of_ofSource_endOfText :
    let source : Source := ⟨Path.ofString "a.api", "type (\n\n".toList⟩
    let error : InputError := .notDescription source ⟨.unterminatedTypes, 3, 1⟩
    (ofSource source).result = .error error ∧
      error.diagnostic.text =
        "a.api:3:1\n   1 | type (\n   2 | \n   3 | \n       ^^^\n" ++
          "Unterminated type group, expected ')'" ∧
      ∃ fault, parse source = .error fault ∧ error = .notDescription source fault ∧
        error.diagnostic.PointsAt source fault := by
  intro source error
  have failed : (ofSource source).result = .error error := by decide +kernel
  exact ⟨failed, by decide +kernel, pointsAt_of_ofSource failed⟩

end Document

end ApiDescription
