import ApiDescription.Proofs.Rounds
import ApiDescription.Proofs.Text
import ApiDescription.Tag

/-!
# What the search for entries finds

An entry is a key, a colon, and a value between quotes. A tag is searched from left to right for
the entry that begins first, then behind its closing quote for the next one, until no entry begins
anywhere in the rest. What is found is told here without the search: the entries, and which of
their options say that the member is optional.
-/

namespace ApiDescription.Tag

/-- A text that may be the key of an entry. -/
def IsKey : Text → Prop
  | [] => False
  | point :: rest => beginsKey point = true ∧ ∀ other ∈ rest, inKey other = true

instance : DecidablePred IsKey
  | [] => isFalse id
  | _ :: _ => inferInstanceAs (Decidable (_ ∧ _))

/-- What may stand between the quotes of an entry: everything but quotes, where a backslash takes
the code point behind it along, which is no line feed. -/
inductive IsValue : Text → Prop
  | empty : IsValue []
  | plain {point : CodePoint} {rest : Text} (noQuote : point ≠ .char '"')
      (noBackslash : point ≠ .char '\\') (later : IsValue rest) : IsValue (point :: rest)
  | escaped {point : CodePoint} {rest : Text} (noFeed : point ≠ .char '\n')
      (later : IsValue rest) : IsValue (.char '\\' :: point :: rest)

/-- A text that begins with an entry of a key and a value, and what follows its quote. -/
structure Opens (text key value rest : Text) : Prop where
  isKey : IsKey key
  isValue : IsValue value
  whole : text = key ++ .char ':' :: .char '"' :: (value ++ .char '"' :: rest)

/-- The entry that begins first in a text: none begins in what it has in front. -/
def Leads (text key value rest : Text) : Prop :=
  ∃ before behind, text = before ++ behind ∧ Opens behind key value rest ∧
    ∀ skipped ahead, before = skipped ++ ahead → ahead ≠ [] →
      ∀ key value rest, ¬Opens (ahead ++ behind) key value rest

/-- The keys and values of the entries of a text, searched from left to right. -/
inductive Finds : Text → List (Text × Text) → Prop
  | none {text : Text} (absent : ∀ before behind, text = before ++ behind →
      ∀ key value rest, ¬Opens behind key value rest) : Finds text []
  | next {text key value rest : Text} {pairs : List (Text × Text)}
      (leads : Leads text key value rest) (later : Finds rest pairs) :
      Finds text ((key, value) :: pairs)

/-- The keys and values of the entries of a tag: those of the text between the backticks around
it. -/
def Lists (tag : Text) (pairs : List (Text × Text)) : Prop :=
  ∃ before body after, tag = before ++ body ++ after ∧
    (∀ point ∈ before ++ after, point = .char '\x60') ∧
    (∀ point ∈ body.head?, point ≠ .char '\x60') ∧
    (∀ point ∈ body.getLast?, point ≠ .char '\x60') ∧ Finds body pairs

/-- Whether a value has the option `optional`: the word stands behind a comma and in front of
another one or the end, with nothing but blanks around it. -/
def HasOptional (value : Text) : Prop :=
  ∃ before margin padding after,
    value = before ++ .char ',' :: (margin ++ Text.ofString "optional" ++ padding ++ after) ∧
    (∀ point ∈ margin ++ padding, point.satisfies Text.isBlank = true) ∧
    ∀ point ∈ after.head?, point = .char ','

/-- Whether the entries of a tag mark its member optional: one that counts for bodies or forms has
the option. -/
def Marks (pairs : List (Text × Text)) : Prop :=
  ∃ pair ∈ pairs, (pair.1 = Text.ofString "json" ∨ pair.1 = Text.ofString "form") ∧
    HasOptional pair.2

variable {text key value rest : Text}

/-- The value behind a quote is read up to its closing quote. -/
theorem quotedValue?_eq_some_iff :
    quotedValue? text = some (value, rest) ↔
      IsValue value ∧ text = value ++ .char '"' :: rest := by
  constructor
  · intro read
    fun_induction quotedValue? text generalizing value rest with
    | case1 | case2 | case3 => cases read
    | case4 next behind noFeed inductionHypothesis =>
      obtain ⟨⟨inner, left⟩, found, same⟩ := Option.map_eq_some_iff.mp read
      cases same
      obtain ⟨isValue, rfl⟩ := inductionHypothesis found
      exact ⟨.escaped noFeed isValue, rfl⟩
    | case5 =>
      cases read
      exact ⟨.empty, rfl⟩
    | case6 point behind noEnd noEscape noQuote inductionHypothesis =>
      obtain ⟨⟨inner, left⟩, found, same⟩ := Option.map_eq_some_iff.mp read
      cases same
      obtain ⟨isValue, rfl⟩ := inductionHypothesis found
      refine ⟨.plain noQuote ?_ isValue, rfl⟩
      rintro rfl
      cases inner with
      | nil => exact noEscape _ _ rfl rfl
      | cons next inner => exact noEscape next _ rfl rfl
  · rintro ⟨isValue, rfl⟩
    induction isValue with
    | empty => simp [quotedValue?]
    | plain noQuote noBackslash later inductionHypothesis =>
      rw [List.cons_append, quotedValue?, if_neg noQuote, inductionHypothesis]
      · rfl
      · exact fun isBackslash _ => noBackslash isBackslash
      · exact fun _ _ isBackslash _ => noBackslash isBackslash
    | escaped noFeed later inductionHypothesis =>
      rw [List.cons_append, List.cons_append, quotedValue?, if_neg noFeed, inductionHypothesis]
      rfl

/-- An entry that begins here is found with what follows it. -/
theorem entryHere?_eq_some_iff :
    entryHere? text = some ((key, value), rest) ↔ Opens text key value rest := by
  constructor
  · intro read
    unfold entryHere? at read
    split at read
    · cases read
    · next point behind =>
      split at read
      · next begins =>
        split at read
        · next body colon =>
          obtain ⟨⟨inner, left⟩, found, same⟩ := Option.map_eq_some_iff.mp read
          cases same
          obtain ⟨isValue, rfl⟩ := quotedValue?_eq_some_iff.mp found
          have whole := List.takeWhile_append_dropWhile (p := inKey) (l := behind)
          rw [colon] at whole
          exact ⟨⟨begins, fun other => List.mem_takeWhile_imp⟩, isValue, by
            rw [List.cons_append, whole]⟩
        · cases read
      · cases read
  · rintro ⟨isKey, isValue, rfl⟩
    cases key with
    | nil => exact isKey.elim
    | cons point key =>
      obtain ⟨begins, inside⟩ := isKey
      have colon : inKey (.char ':') = false := by decide +kernel
      have stops (behind : Text) :
          (key ++ .char ':' :: behind).dropWhile inKey = .char ':' :: behind := by
        rw [List.dropWhile_append_of_pos inside, List.dropWhile_cons_of_neg (by simp [colon])]
      have word (behind : Text) : (key ++ .char ':' :: behind).takeWhile inKey = key := by
        rw [List.takeWhile_append_of_pos inside, List.takeWhile_cons_of_neg (by simp [colon]),
          List.append_nil]
      rw [List.cons_append, entryHere?, if_pos begins, stops, word]
      simp only [quotedValue?_eq_some_iff.mpr ⟨isValue, rfl⟩, Option.map_some]

/-- No entry is found where none begins. -/
theorem entryHere?_eq_none_iff :
    entryHere? text = none ↔ ∀ key value rest, ¬Opens text key value rest := by
  rw [Option.eq_none_iff_forall_ne_some]
  exact ⟨fun absent key value rest opens => absent _ (entryHere?_eq_some_iff.mpr opens),
    fun absent found read => absent _ _ _ (entryHere?_eq_some_iff.mp read)⟩

/-- An entry that begins a text leads it. -/
theorem Opens.leads (opens : Opens text key value rest) : Leads text key value rest :=
  ⟨[], text, rfl, opens, fun _ _ split some => absurd (List.append_eq_nil_iff.mp split.symm).2 some⟩

/-- What leads a text leads it behind a code point, too, if no entry begins there. -/
theorem Leads.cons {point : CodePoint} (leads : Leads text key value rest)
    (absent : ∀ key value rest, ¬Opens (point :: text) key value rest) :
    Leads (point :: text) key value rest := by
  obtain ⟨before, behind, rfl, opens, noEarlier⟩ := leads
  refine ⟨point :: before, behind, rfl, opens, fun skipped ahead split some => ?_⟩
  cases skipped with
  | nil =>
    obtain rfl : point :: before = ahead := split
    exact absent
  | cons first skipped => exact noEarlier skipped ahead (List.cons.inj split).2 some

/-- The leftmost entry is the one that leads the text. -/
theorem leftmost?_eq_some_iff :
    leftmost? text = some ((key, value), rest) ↔ Leads text key value rest := by
  constructor
  · intro read
    induction text with
    | nil => cases read
    | cons point text inductionHypothesis =>
      rw [leftmost?] at read
      cases here : entryHere? (point :: text) with
      | some found =>
        rw [here] at read
        cases read
        exact (entryHere?_eq_some_iff.mp here).leads
      | none =>
        rw [here] at read
        exact (inductionHypothesis read).cons (entryHere?_eq_none_iff.mp here)
  · rintro ⟨before, behind, rfl, opens, noEarlier⟩
    induction before with
    | nil =>
      have here := entryHere?_eq_some_iff.mpr opens
      rw [List.nil_append]
      cases behind with
      | nil => cases here
      | cons point behind => rw [leftmost?, here]
    | cons point before inductionHypothesis =>
      have absent := entryHere?_eq_none_iff.mpr (noEarlier [] (point :: before) rfl nofun)
      rw [List.cons_append] at absent ⊢
      rw [leftmost?, absent]
      refine inductionHypothesis fun skipped ahead split => noEarlier (point :: skipped) ahead ?_
      rw [split, List.cons_append]

/-- There is no leftmost entry if none begins anywhere. -/
theorem leftmost?_eq_none_iff :
    leftmost? text = none ↔ ∀ before behind, text = before ++ behind →
      ∀ key value rest, ¬Opens behind key value rest := by
  induction text with
  | nil =>
    refine iff_of_true rfl fun before behind split => ?_
    rw [(List.append_eq_nil_iff.mp split.symm).2]
    exact entryHere?_eq_none_iff.mp rfl
  | cons point text inductionHypothesis =>
    rw [leftmost?]
    cases here : entryHere? (point :: text) with
    | some found =>
      have opens := entryHere?_eq_some_iff.mp here
      exact iff_of_false nofun fun absent => absent [] _ rfl _ _ _ opens
    | none =>
      refine inductionHypothesis.trans ⟨fun absent before behind split => ?_,
        fun absent before behind split => absent (point :: before) behind ?_⟩
      · cases before with
        | nil =>
          obtain rfl : point :: text = behind := split
          exact entryHere?_eq_none_iff.mp here
        | cons first before => exact absent before behind (List.cons.inj split).2
      · rw [split, List.cons_append]

/-- An entry takes something off the text. -/
theorem Leads.length_lt (leads : Leads text key value rest) : rest.length < text.length := by
  obtain ⟨before, behind, rfl, ⟨-, -, rfl⟩, -⟩ := leads
  simp only [List.length_append, List.length_cons]
  omega

/-- A round takes something off the text. -/
theorem shrinks_entryRound : Shrinks entryRound := by
  intro text entry rest read
  unfold entryRound at read
  cases found : leftmost? text with
  | none => simp [found] at read
  | some first =>
    obtain ⟨⟨key, value⟩, behind⟩ := first
    simp only [found] at read
    cases read
    exact (leftmost?_eq_some_iff.mp found).length_lt

/-- Searching round by round finds the entries of a text, and no others. -/
theorem finds_iff {pairs : List (Text × Text)} :
    Finds text pairs ↔ (collect entryRound text).items = pairs := by
  constructor
  · intro finds
    induction finds with
    | none absent =>
      rw [collect_eq shrinks_entryRound, entryRound, leftmost?_eq_none_iff.mpr absent]
    | next leads later inductionHypothesis =>
      rw [collect_eq shrinks_entryRound, entryRound, leftmost?_eq_some_iff.mpr leads]
      simp only [inductionHypothesis]
  · rintro rfl
    induction size : text.length using Nat.strongRecOn generalizing text with
    | _ size inductionHypothesis =>
      rw [collect_eq shrinks_entryRound, entryRound]
      cases found : leftmost? text with
      | none => exact .none (leftmost?_eq_none_iff.mp found)
      | some first =>
        obtain ⟨⟨key, value⟩, behind⟩ := first
        have leads := leftmost?_eq_some_iff.mp found
        exact .next leads (inductionHypothesis _ (size ▸ leads.length_lt) rfl)

/-- A tag lists exactly the entries that are read from it. -/
theorem exists_lists_iff (tag : Text) :
    ∃ pairs, (∀ other, Lists tag other ↔ other = pairs) ∧
      parse tag = pairs.map fun (key, value) => entryOf key value := by
  refine ⟨_, fun other => ⟨?_, ?_⟩, rfl⟩
  · rintro ⟨before, body, after, rfl, ticks, first, last, finds⟩
    rw [List.forall_mem_append] at ticks
    have stripped : Text.trimWhile (· = .char '\x60') (before ++ body ++ after) = body :=
      (Text.trimWhile_padded (by simpa using ticks.1) (by simpa using ticks.2) body).trans
        (Text.trimWhile_eq_self (by simpa using first) (by simpa using last))
    rw [stripped, finds_iff.mp finds]
  · rintro rfl
    obtain ⟨before, after, whole, ticksBefore, ticksAfter⟩ :=
      Text.exists_trimWhile_padded (· = .char '\x60') tag
    refine ⟨before, _, after, whole, ?_, ?_, ?_, finds_iff.mpr rfl⟩
    · rw [List.forall_mem_append]
      exact ⟨by simpa using ticksBefore, by simpa using ticksAfter⟩
    · simpa using Text.head?_trimWhile (· = .char '\x60') tag
    · simpa using Text.getLast?_trimWhile (· = .char '\x60') tag

/-- The options of an entry are the parts of its value behind the first comma. -/
theorem options_entryOf (key value : Text) :
    (entryOf key value).options = (Text.splitOn (.char ',') value).tail.map Text.trim := by
  rw [entryOf]
  cases Text.splitOn (.char ',') value <;> rfl

/-- The options of an entry hold the word exactly if its value has the option. -/
theorem optional_mem_options_iff {key value : Text} :
    Text.ofString "optional" ∈ (entryOf key value).options ↔ HasOptional value := by
  rw [options_entryOf, List.mem_map]
  constructor
  · rintro ⟨part, isPart, trimmed⟩
    obtain ⟨-, before, after, rfl, ended⟩ := Text.mem_tail_splitOn_iff.mp isPart
    obtain ⟨margin, padding, whole, blankBefore, blankAfter⟩ :=
      Text.exists_trimWhile_padded (·.satisfies Text.isBlank) part
    refine ⟨before, margin, padding, after, ?_, ?_, ended⟩
    · rw [whole]
      exact congrArg (fun word => before ++ .char ',' :: (margin ++ word ++ padding ++ after)) trimmed
    · exact List.forall_mem_append.mpr ⟨blankBefore, blankAfter⟩
  · rintro ⟨before, margin, padding, after, rfl, blank, ended⟩
    obtain ⟨blankBefore, blankAfter⟩ := List.forall_mem_append.mp blank
    have noComma {gap : Text} (blank : ∀ point ∈ gap, point.satisfies Text.isBlank = true) :
        .char ',' ∉ gap :=
      fun member => nomatch blank _ member
    have apart : .char ',' ∉ margin ++ Text.ofString "optional" ++ padding := by
      simp only [List.mem_append, not_or]
      exact ⟨⟨noComma blankBefore, by decide⟩, noComma blankAfter⟩
    refine ⟨_, Text.mem_tail_splitOn_iff.mpr ⟨apart, before, after, rfl, ended⟩, ?_⟩
    exact (Text.trimWhile_padded blankBefore blankAfter _).trans (by decide +kernel)

/-- The entries of a tag are listed in one way, and say whether its member is optional. -/
theorem exists_lists_marks (member : Member) :
    ∃ pairs, (∀ other, Lists member.tag other ↔ other = pairs) ∧
      (member.isOptional = true ↔ Marks pairs) := by
  obtain ⟨pairs, lists, read⟩ := exists_lists_iff member.tag
  have keyOf (key value : Text) : (entryOf key value).key = key := by
    rw [entryOf]
    split <;> rfl
  refine ⟨pairs, lists, ?_⟩
  simp only [Member.isOptional, read, List.any_map, List.any_eq_true, Function.comp_apply,
    Bool.and_eq_true, List.contains_iff_mem, optional_mem_options_iff, keyOf, optionalKeys,
    List.mem_cons, List.not_mem_nil, or_false, Marks]

end ApiDescription.Tag
