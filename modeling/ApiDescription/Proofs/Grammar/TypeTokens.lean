import ApiDescription.Proofs.Grammar.Taking

/-!
# The tokens of a type

A type takes up tokens that spell its name, and every type inside it takes up a part of
them that spells its own. All of them stand on one line, so that the number of tokens on
the line bounds the nesting of the type: the bound in `typeExpr` is never met.
-/

namespace ApiDescription

/-- The characters that the kind of a token fixes, and else its value. -/
def Token.spelling (token : Token) : Text :=
  match token.kind with
  | .mark found => Text.ofString (String.singleton found.char)
  | .keyword word => Text.ofString word.spelling
  | _ => token.text

section Spelling

variable {spell : Token → Text}

/-- A mark contributes its character. -/
theorem Token.spell_of_mark {token : Token} {found : Mark} (known : spell token = token.spelling)
    (kind : token.kind = .mark found) :
    spell token = Text.ofString (String.singleton found.char) := by
  rw [known, spelling, kind]

/-- A keyword contributes the word. -/
theorem Token.spell_of_keyword {token : Token} {word : Keyword}
    (known : spell token = token.spelling) (kind : token.kind = .keyword word) :
    spell token = Text.ofString word.spelling := by
  rw [known, spelling, kind]

/-- A word or a number contributes what it says. -/
theorem Token.spell_of_text {token : Token} (known : spell token = token.spelling)
    (kind : token.kind = .identifier ∨ token.kind = .number) : spell token = token.text := by
  rw [known, spelling]
  rcases kind with kind | kind <;> rw [kind]

namespace TypeExpr

variable {key value target : TypeExpr} {used : List Token}

/-- A qualified name is written with a dot between its words. -/
theorem qualified_eq {first dot second : Token} (known : spell first = first.spelling)
    (kind : first.kind = .identifier) (dotKnown : spell dot = dot.spelling)
    (dotKind : dot.kind = .mark .dot) (secondKnown : spell second = second.spelling)
    (secondKind : second.kind = .identifier) :
    [first, dot, second].flatMap spell = first.text ++ Text.ofString "." ++ second.text := by
  simp only [List.flatMap_cons, List.flatMap_nil, Token.spell_of_text known (.inl kind),
    Token.spell_of_mark dotKnown dotKind, Token.spell_of_text secondKnown (.inl secondKind)]
  simp [Mark.char]

/-- The empty interface is written with braces behind the word. -/
theorem emptyInterface_eq {word opening closing : Token} (known : spell word = word.spelling)
    (kind : word.kind = .keyword .interface) (openingKnown : spell opening = opening.spelling)
    (openingKind : opening.kind = .mark .leftBrace)
    (closingKnown : spell closing = closing.spelling)
    (closingKind : closing.kind = .mark .rightBrace) :
    [word, opening, closing].flatMap spell = emptyInterface := by
  simp only [List.flatMap_cons, List.flatMap_nil, Token.spell_of_keyword known kind,
    Token.spell_of_mark openingKnown openingKind, Token.spell_of_mark closingKnown closingKind]
  decide

/-- A pointer is written with a star in front of what it points to. -/
theorem pointer_eq {star : Token} (known : spell star = star.spelling)
    (kind : star.kind = .mark .star) (name : target.name = used.flatMap spell) :
    .pointer ((star :: used).flatMap spell) target = pointerTo target := by
  rw [pointerTo, name, List.flatMap_cons, Token.spell_of_mark known kind]
  rfl

/-- An array is written with its size, if it has one, between brackets in front of its type. -/
theorem array_eq {opening closing : Token} {sizes : List Token} {size : Text}
    (known : spell opening = opening.spelling) (kind : opening.kind = .mark .leftBracket)
    (sized : sizes.flatMap spell = size) (closingKnown : spell closing = closing.spelling)
    (closingKind : closing.kind = .mark .rightBracket) (name : value.name = used.flatMap spell) :
    .array ((opening :: (sizes ++ closing :: used)).flatMap spell) value = arrayOf size value := by
  simp only [arrayOf, name, sized, List.flatMap_cons, List.flatMap_append, List.append_assoc,
    Token.spell_of_mark known kind, Token.spell_of_mark closingKnown closingKind]
  rfl

/-- A map is written with the type of its keys between brackets in front of that of its values. -/
theorem map_eq {word opening closing : Token} {keyUsed : List Token}
    (known : spell word = word.spelling) (kind : word.kind = .keyword .map)
    (openingKnown : spell opening = opening.spelling)
    (openingKind : opening.kind = .mark .leftBracket)
    (keyName : key.name = keyUsed.flatMap spell) (closingKnown : spell closing = closing.spelling)
    (closingKind : closing.kind = .mark .rightBracket) (name : value.name = used.flatMap spell) :
    .map ((word :: opening :: (keyUsed ++ closing :: used)).flatMap spell) key.name value =
      mapOf key value := by
  simp only [mapOf, keyName, name, List.flatMap_cons, List.flatMap_append, List.append_assoc,
    Token.spell_of_keyword known kind, Token.spell_of_mark openingKnown openingKind,
    Token.spell_of_mark closingKnown closingKind]
  rfl

end TypeExpr

end Spelling

/-- A type that is made of some tokens: at every level its name is that of the tokens it is
made of, one after the other. What a token contributes to a name is given by `spell`. -/
inductive TypeExpr.MadeOf (spell : Token → Text) : TypeExpr → List Token → Prop
  | word {token : Token} (kind : token.kind = .identifier) :
      MadeOf spell (.ofName ([token].flatMap spell)) [token]
  | qualified {first dot second : Token} (kind : first.kind = .identifier)
      (dotKind : dot.kind = .mark .dot) (secondKind : second.kind = .identifier) :
      MadeOf spell (.ofName ([first, dot, second].flatMap spell)) [first, dot, second]
  | interface {word opening closing : Token} (kind : word.kind = .keyword .interface)
      (openingKind : opening.kind = .mark .leftBrace)
      (closingKind : closing.kind = .mark .rightBrace) :
      MadeOf spell (.interface ([word, opening, closing].flatMap spell)) [word, opening, closing]
  | pointer {star : Token} {target : TypeExpr} {used : List Token} (kind : star.kind = .mark .star)
      (inside : MadeOf spell target used) :
      MadeOf spell (.pointer ((star :: used).flatMap spell) target) (star :: used)
  | slice {opening closing : Token} {value : TypeExpr} {used : List Token}
      (kind : opening.kind = .mark .leftBracket) (closingKind : closing.kind = .mark .rightBracket)
      (inside : MadeOf spell value used) :
      MadeOf spell (.array ((opening :: closing :: used).flatMap spell) value)
        (opening :: closing :: used)
  | array {opening size closing : Token} {value : TypeExpr} {used : List Token}
      (kind : opening.kind = .mark .leftBracket) (sizeKind : size.kind = .number)
      (closingKind : closing.kind = .mark .rightBracket) (inside : MadeOf spell value used) :
      MadeOf spell (.array ((opening :: size :: closing :: used).flatMap spell) value)
        (opening :: size :: closing :: used)
  | map {word opening closing : Token} {key value : TypeExpr} {keyUsed used : List Token}
      (kind : word.kind = .keyword .map) (openingKind : opening.kind = .mark .leftBracket)
      (keyInside : MadeOf spell key keyUsed) (closingKind : closing.kind = .mark .rightBracket)
      (inside : MadeOf spell value used) :
      MadeOf spell
        (.map ((word :: opening :: (keyUsed ++ closing :: used)).flatMap spell) key.name value)
        (word :: opening :: (keyUsed ++ closing :: used))

namespace TypeExpr.MadeOf

variable {spell : Token → Text} {type : TypeExpr} {used : List Token}

/-- A type is named by the tokens it is made of. -/
theorem name_eq (made : type.MadeOf spell used) : type.name = used.flatMap spell := by
  cases made with
  | word | qualified => exact TypeExpr.name_ofName _
  | _ => rfl

/-- The tokens of a type stand on one line. -/
theorem inLine (made : type.MadeOf spell used) : ∀ token ∈ used, token.kind ≠ .newline := by
  induction made with
  | word kind => simp [kind]
  | qualified kind dotKind secondKind => simp [kind, dotKind, secondKind]
  | interface kind openingKind closingKind => simp [kind, openingKind, closingKind]
  | pointer kind _ inductionHypothesis => simpa [kind] using inductionHypothesis
  | slice kind closingKind _ inductionHypothesis =>
    simpa [kind, closingKind] using inductionHypothesis
  | array kind sizeKind closingKind _ inductionHypothesis =>
    simpa [kind, sizeKind, closingKind] using inductionHypothesis
  | map kind openingKind _ closingKind _ keyHypothesis inductionHypothesis =>
    simpa [kind, openingKind, closingKind, or_imp, forall_and] using
      ⟨keyHypothesis, inductionHypothesis⟩

end TypeExpr.MadeOf

namespace Rule

variable {α β : Type} {Known : Token → Prop} {Taken : α → List Token → Prop}

/-- A qualified name takes a dot and an identifier behind its first word, or nothing. -/
theorem takes_qualifiedName (first : Text) :
    Takes Known (fun word used =>
      (∃ dot second : Token, used = [dot, second] ∧ dot.kind = .mark .dot ∧
        second.kind = .identifier ∧ Known dot ∧ Known second ∧
        word = first ++ Text.ofString "." ++ second.text) ∨
      (used = [] ∧ word = first)) (qualifiedName first) := by
  refine (Takes.accepts (by decide)).bind fun found used accepted => ?_
  cases found with
  | false => exact .pure (.inr ⟨by simpa using accepted, rfl⟩)
  | true =>
    obtain ⟨dot, rfl, dotKind, dotKnown⟩ := (if_pos rfl).mp accepted
    refine (Takes.expect (by decide)).map fun second used read => ?_
    obtain ⟨rfl, secondKind, secondKnown⟩ := read
    exact .inl ⟨dot, second, rfl, dotKind, secondKind, dotKnown, secondKnown, rfl⟩

section Types

variable {spell : Token → Text}

/-- What stands behind the first token of a type makes the type up, together with that token. -/
theorem takes_typeBehind {depth : Nat} {first : Token} {behind : Rule TypeExpr}
    (firstKnown : spell first = first.spelling)
    (inner : Takes (fun token => spell token = token.spelling) (TypeExpr.MadeOf spell)
      (typeWithin depth))
    (found : typeBehind depth first = some behind) :
    Takes (fun token => spell token = token.spelling)
      (fun type used => type.MadeOf spell (first :: used)) behind := by
  unfold typeBehind at found
  split at found
  case h_1 kind =>
    cases found
    refine inner.map fun target used made => ?_
    rw [← TypeExpr.pointer_eq firstKnown kind made.name_eq]
    exact .pointer kind made
  case h_2 kind =>
    cases found
    refine (Takes.textIf (by decide)).bind fun size sizeUsed sizeRead => ?_
    refine (Takes.expect (by decide)).bind fun closing closingUsed closingRead => ?_
    obtain ⟨rfl, closingKind, closingKnown⟩ := closingRead
    refine inner.map fun value used made => ?_
    rcases sizeRead with ⟨number, rfl, rfl, numberKind, numberKnown⟩ | ⟨rfl, rfl⟩
    · have sized : [number].flatMap spell = number.text := by
        rw [List.flatMap_singleton, Token.spell_of_text numberKnown (.inr numberKind)]
      rw [← TypeExpr.array_eq firstKnown kind sized closingKnown closingKind made.name_eq]
      exact .array kind numberKind closingKind made
    · have sized : [].flatMap spell = [] := rfl
      rw [← TypeExpr.array_eq firstKnown kind sized closingKnown closingKind made.name_eq]
      exact .slice kind closingKind made
  case h_3 kind =>
    cases found
    refine (Takes.expect (by decide)).bind fun opening openingUsed openingRead => ?_
    obtain ⟨rfl, openingKind, openingKnown⟩ := openingRead
    refine inner.bind fun key keyUsed keyMade => ?_
    refine (Takes.expect (by decide)).bind fun closing closingUsed closingRead => ?_
    obtain ⟨rfl, closingKind, closingKnown⟩ := closingRead
    refine inner.map fun value used made => ?_
    rw [← TypeExpr.map_eq firstKnown kind openingKnown openingKind keyMade.name_eq closingKnown
      closingKind made.name_eq]
    exact .map kind openingKind keyMade closingKind made
  case h_4 kind =>
    cases found
    refine (Takes.expect (by decide)).bind fun opening openingUsed openingRead => ?_
    obtain ⟨rfl, openingKind, openingKnown⟩ := openingRead
    refine (Takes.expect (by decide)).map fun closing closingUsed closingRead => ?_
    obtain ⟨rfl, closingKind, closingKnown⟩ := closingRead
    rw [← TypeExpr.emptyInterface_eq firstKnown kind openingKnown openingKind closingKnown
      closingKind]
    exact .interface kind openingKind closingKind
  case h_5 kind =>
    cases found
    refine (takes_qualifiedName first.text).map fun word used read => ?_
    rcases read with
      ⟨dot, second, rfl, dotKind, secondKind, dotKnown, secondKnown, rfl⟩ | ⟨rfl, rfl⟩
    · rw [← TypeExpr.qualified_eq firstKnown kind dotKnown dotKind secondKnown secondKind]
      exact .qualified kind dotKind secondKind
    · rw [← Token.spell_of_text firstKnown (.inl kind), ← List.flatMap_singleton spell first]
      exact .word kind
  case h_6 => exact nomatch found

/-- A type is made of the tokens it takes, however deeply it is nested. -/
theorem takes_typeWithin (depth : Nat) :
    Takes (fun token => spell token = token.spelling) (TypeExpr.MadeOf spell)
      (typeWithin depth) := by
  induction depth with
  | zero => exact .fail _
  | succ depth inductionHypothesis =>
    intro stream type next ended known read
    rw [typeWithin_succ_apply] at read
    cases found : typeBehind depth stream.current with
    | none =>
      rw [found] at read
      exact nomatch read
    | some behind =>
      rw [found] at read
      obtain ⟨ahead, nextEnded⟩ := ahead_eq_current_cons ended (goesOn_of_typeBehind found)
      rw [ahead] at known
      obtain ⟨used, split, behindEnded, made⟩ :=
        takes_typeBehind (known _ List.mem_cons_self) inductionHypothesis found stream.next type
          next nextEnded (fun token member => known token (List.mem_cons_of_mem _ member)) read
      exact ⟨stream.current :: used, by rw [ahead, split, List.cons_append], behindEnded, made⟩

end Types

/-- Tokens of the line that are taken leave the rest of the line. -/
theorem lineLength_eq {stream next : Stream} {used : List Token}
    (split : stream.ahead = used ++ next.ahead) (inLine : ∀ token ∈ used, token.kind ≠ .newline) :
    lineLength stream = used.length + lineLength next := by
  rw [lineLength, split, List.takeWhile_append_of_pos (by simpa using inLine), List.length_append]
  rfl

/-- Rules in turn agree on a stream if the first ones do, and the second ones where these lead. -/
theorem bind_congr_at {first former : Rule α} {second other : α → Rule β} {stream : Stream}
    (sameFirst : first stream = former stream)
    (same : ∀ value next, first stream = .ok value next → second value next = other value next) :
    (first >>= second) stream = (former >>= other) stream := by
  rw [bind_apply, bind_apply, ← sameFirst]
  cases read : first stream with
  | error fault next => rfl
  | ok value next => exact same value next read

/-- What a rule takes on the line brings the end of the line nearer. -/
theorem Takes.lineLength_le {rule : Rule α} (takes : Takes Known Taken rule)
    (known : ∀ token, Known token)
    (inLine : ∀ value used, Taken value used → ∀ token ∈ used, token.kind ≠ .newline)
    {stream next : Stream} {value : α} (ended : stream.Ended)
    (read : rule stream = .ok value next) :
    lineLength next ≤ lineLength stream ∧ next.Ended := by
  obtain ⟨used, split, nextEnded, taken⟩ :=
    takes stream value next ended (fun token _ => known token) read
  rw [lineLength_eq split (inLine value used taken)]
  exact ⟨Nat.le_add_left _ _, nextEnded⟩

/-- A token that is not a line feed is taken on the line. -/
theorem lineLength_le_of_expect {mark : Mark} {stream next : Stream} {token : Token}
    (ended : stream.Ended) (read : expect (.mark mark) stream = .ok token next) :
    lineLength next ≤ lineLength stream ∧ next.Ended := by
  have takes : Takes (fun _ => True) _ (expect (.mark mark)) := Takes.expect (by simp)
  refine takes.lineLength_le (fun _ => trivial) ?_ ended read
  rintro found _ ⟨rfl, kind, -⟩
  simp [kind]

/-- At the end of a line no type begins. -/
theorem typeWithin_of_lineLength_eq_zero {stream : Stream} (ended : stream.Ended)
    (atEnd : lineLength stream = 0) (depth : Nat) :
    typeWithin depth stream = fail .expectedType stream := by
  have kind : stream.current.kind = .newline ∨ stream.current.kind = .endOfText := by
    cases ahead : stream.ahead with
    | nil =>
      rw [Stream.current_of_nil ahead]
      exact .inr ended
    | cons token rest =>
      rw [Stream.current_of_cons ahead]
      by_cases feed : token.kind = .newline
      · exact .inl feed
      · simp [lineLength, ahead, feed] at atEnd
  cases depth with
  | zero => rfl
  | succ depth =>
    rw [typeWithin_succ_apply]
    rcases kind with kind | kind <;> simp only [typeBehind, kind]

/-- Where a line goes on, less of it is left behind its next token. -/
theorem lineLength_next_lt {stream : Stream} (ended : stream.Ended)
    (goesOn : lineLength stream ≠ 0) :
    stream.next.Ended ∧ lineLength stream.next < lineLength stream := by
  cases ahead : stream.ahead with
  | nil => simp [lineLength, ahead] at goesOn
  | cons token rest =>
    have inLine : token.kind ≠ .newline := by
      intro feed
      simp [lineLength, ahead, feed] at goesOn
    constructor
    · rw [← Stream.skip_one]
      exact ended.skip 1
    · simp [lineLength, ahead, Stream.ahead_next ahead, inLine]

/-- Bounds that agree on the types that begin on the rest of a line agree on a type that begins with
the token before it. -/
theorem typeBehind_congr {first : Token} {stream : Stream} (ended : stream.Ended)
    {depth other : Nat}
    (same : ∀ later : Stream, later.Ended → lineLength later ≤ lineLength stream →
      typeWithin depth later = typeWithin other later) :
    (typeBehind depth first).map (· stream) = (typeBehind other first).map (· stream) := by
  cases kind : first.kind with
  | mark found =>
    cases found with
    | star =>
      simp only [typeBehind, kind, Option.map_some]
      exact congrArg some
        (bind_congr_at (same stream ended (Nat.le_refl _)) fun _ _ _ => rfl)
    | leftBracket =>
      simp only [typeBehind, kind, Option.map_some]
      refine congrArg some (bind_congr_at rfl fun size sized readSize => ?_)
      have takesSize : Takes (fun _ => True) _ (textIf .number) := Takes.textIf (by decide)
      have sizedOn := takesSize.lineLength_le (fun _ => trivial) (by
        rintro found _ (⟨token, rfl, -, isNumber, -⟩ | ⟨rfl, -⟩) <;> simp [*]) ended readSize
      refine bind_congr_at rfl fun closing closed readClosing => ?_
      have closedOn := lineLength_le_of_expect sizedOn.2 readClosing
      exact bind_congr_at (same closed closedOn.2 (Nat.le_trans closedOn.1 sizedOn.1))
        fun _ _ _ => rfl
    | _ => simp only [typeBehind, kind]
  | keyword word =>
    cases word with
    | map =>
      simp only [typeBehind, kind, Option.map_some]
      refine congrArg some (bind_congr_at rfl fun opening opened readOpening => ?_)
      have openedOn := lineLength_le_of_expect ended readOpening
      refine bind_congr_at (same opened openedOn.2 openedOn.1) fun key keyed readKey => ?_
      have keyedOn := (takes_typeWithin depth).lineLength_le (fun token => Eq.refl token.spelling)
        (fun _ _ made => made.inLine) openedOn.2 readKey
      refine bind_congr_at rfl fun closing closed readClosing => ?_
      have closedOn := lineLength_le_of_expect keyedOn.2 readClosing
      exact bind_congr_at (same closed closedOn.2
        (Nat.le_trans closedOn.1 (Nat.le_trans keyedOn.1 openedOn.1))) fun _ _ _ => rfl
    | _ => simp only [typeBehind, kind]
  | _ => simp only [typeBehind, kind]

/-- The number of tokens on the line bounds the nesting of a type: any bound that allows for them
gives the same answer, and the same fault. -/
theorem typeWithin_eq_of_le {stream : Stream} (ended : stream.Ended) {depth other : Nat}
    (enough : lineLength stream ≤ depth) (enoughOther : lineLength stream ≤ other) :
    typeWithin depth stream = typeWithin other stream := by
  induction depth generalizing stream other with
  | zero =>
    have atEnd := Nat.le_zero.mp enough
    rw [typeWithin_of_lineLength_eq_zero ended atEnd, typeWithin_of_lineLength_eq_zero ended atEnd]
  | succ depth inductionHypothesis =>
    by_cases atEnd : lineLength stream = 0
    · rw [typeWithin_of_lineLength_eq_zero ended atEnd,
        typeWithin_of_lineLength_eq_zero ended atEnd]
    obtain ⟨other, rfl⟩ := Nat.exists_eq_add_one_of_ne_zero
      (Nat.ne_zero_of_lt (Nat.lt_of_lt_of_le (Nat.pos_of_ne_zero atEnd) enoughOther))
    -- The types inside begin behind the first token, where less of the line is left.
    obtain ⟨nextEnded, shorter⟩ := lineLength_next_lt ended atEnd
    have inner (later : Stream) (laterEnded : later.Ended)
        (further : lineLength later ≤ lineLength stream.next) :
        typeWithin depth later = typeWithin other later :=
      inductionHypothesis laterEnded (by omega) (by omega)
    have behind (bound : Nat) : typeWithin (bound + 1) stream =
        ((typeBehind bound stream.current).map (· stream.next)).getD
          (fail .expectedType stream) := by
      rw [typeWithin_succ_apply]
      cases typeBehind bound stream.current <;> rfl
    rw [behind, behind, typeBehind_congr nextEnded inner]

/-- The bound on the nesting of a type is never met: any bound that allows for the tokens of the
line reads the same type, or fails with the same fault. -/
theorem typeWithin_eq_typeExpr {stream : Stream} (ended : stream.Ended) {depth : Nat}
    (enough : lineLength stream ≤ depth) : typeWithin depth stream = typeExpr stream :=
  typeWithin_eq_of_le ended enough (Nat.le_succ _)

end Rule

end ApiDescription
