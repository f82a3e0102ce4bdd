import ApiDescription.Proofs.Token.Tiling
import ApiDescription.Text.Blank

/-!
# The ends of tokens

A stretch of a source that begins and ends with a token begins and ends with a character that is
no blank, unless the token is a line feed or a comment. Trimming leaves such a stretch as it is,
so that what is cut out of a source from one token to another is what was written.
-/

namespace ApiDescription

namespace Text

/-- Every blank character: those of ASCII, and those of the ranges beyond it. -/
def blanks : List Char :=
  (((9, 13) :: (28, 32) :: blankRanges).flatMap fun range =>
    List.range' range.1 (range.2 + 1 - range.1)).map Char.ofNat

/-- The blank characters are known one by one. -/
theorem mem_blanks_of_isBlank {c : Char} (blank : isBlank c = true) : c ∈ blanks := by
  have inside : ∃ range ∈ (9, 13) :: (28, 32) :: blankRanges,
      range.1 ≤ c.toNat ∧ c.toNat ≤ range.2 := by
    unfold isBlank at blank
    split at blank
    · have ascii : 9 ≤ c.toNat ∧ c.toNat ≤ 13 ∨ 28 ≤ c.toNat ∧ c.toNat ≤ 32 := by
        simp at blank
        omega
      rcases ascii with low | high
      · exact ⟨_, .head _, low⟩
      · exact ⟨_, .tail _ (.head _), high⟩
    · obtain ⟨range, member, within⟩ := List.any_eq_true.mp blank
      exact ⟨range, .tail _ (.tail _ member), by simpa using within⟩
  obtain ⟨range, member, within⟩ := inside
  rw [← Char.ofNat_toNat c, blanks]
  refine List.mem_map_of_mem (List.mem_flatMap.mpr ⟨range, member, ?_⟩)
  rw [List.mem_range'_1]
  omega

/-- A class that holds none of the blank characters holds no blanks. -/
theorem isBlank_of_class {p : Char → Bool} {c : Char} (holds : p c = true)
    (apart : blanks.all (!p ·) = true) : isBlank c = false := by
  by_contra blank
  have outside := List.all_eq_true.mp apart c (mem_blanks_of_isBlank (Bool.not_eq_false _ ▸ blank))
  exact absurd holds (by simpa using outside)

/-- Characters without blanks at their ends are left as they are by trimming. -/
theorem trimChars_eq_self {chars : List Char} (first : ∀ c ∈ chars.head?, isBlank c = false)
    (last : ∀ c ∈ chars.getLast?, isBlank c = false) : trimChars chars = chars :=
  trimWhile_eq_self first last

end Text

/-- The first character that is cut out of a source. -/
theorem head?_sliceOf (source : List Char) {start stop : Nat} (filled : start < stop) :
    (sliceOf source start stop).head? = source[start]? := by
  rw [sliceOf, List.head?_take, if_neg (by omega), List.head?_drop]

/-- The last character that is cut out of a source. -/
theorem getLast?_sliceOf (source : List Char) {start stop : Nat} (filled : start < stop)
    (within : stop ≤ source.length) :
    (sliceOf source start stop).getLast? = source[stop - 1]? := by
  have length : (sliceOf source start stop).length = stop - start := by
    rw [sliceOf, List.length_take, List.length_drop]
    omega
  rw [List.getLast?_eq_getElem?, length, sliceOf, List.getElem?_take_of_lt (by omega),
    List.getElem?_drop]
  congr 1
  omega

namespace Lexeme

/-- Neither end of a lexeme is blank, line feeds and comments apart. -/
theorem Spells.isBlank_ends {kind : Kind} {slice : List Char} {value : String}
    (spelled : Spells kind slice value) (noFeed : kind ≠ .newline) (noComment : kind ≠ .comment) :
    (∀ c ∈ slice.head?, Text.isBlank c = false) ∧
      ∀ c ∈ slice.getLast?, Text.isBlank c = false := by
  have ofAll (all : ∀ c ∈ slice, Text.isBlank c = false) :
      (∀ c ∈ slice.head?, Text.isBlank c = false) ∧
        ∀ c ∈ slice.getLast?, Text.isBlank c = false :=
    ⟨fun c first => all c (List.mem_of_head? first),
      fun c last => all c (List.mem_of_getLast? last)⟩
  have ofClear (clear : slice.all (!Text.isBlank ·) = true) := ofAll (by simpa using clear)
  cases spelled with
  | newline => exact absurd rfl noFeed
  | lineComment | blockComment => exact absurd rfl noComment
  | path inside _ =>
    refine ofAll (List.forall_mem_cons.mpr ⟨by decide, fun c member => ?_⟩)
    exact Text.isBlank_of_class (inside c member) (by decide +kernel)
  | quotedText | rawText =>
    rw [List.cons_append, List.head?_cons, ← List.cons_append, List.getLast?_concat]
    simp only [Option.mem_some_iff, forall_eq']
    decide
  | number digit inside =>
    refine ofAll (List.forall_mem_cons.mpr ⟨?_, fun c member => ?_⟩)
    · exact Text.isBlank_of_class (inNumber_of_isDigit digit) (by decide +kernel)
    · exact Text.isBlank_of_class (inside c member) (by decide +kernel)
  | word begins _ inside =>
    refine ofAll (List.forall_mem_cons.mpr ⟨?_, fun c member => ?_⟩)
    · exact Text.isBlank_of_class (inIdentifier_of_beginsIdentifier begins) (by decide +kernel)
    · exact Text.isBlank_of_class (inside c member) (by decide +kernel)
  | marker found => cases found <;> exact ofClear (by decide)
  | mark found => cases found <;> exact ofClear (by decide)

end Lexeme

/-- What is cut out of a source from one token to another needs no trimming, unless one of them is
a line feed or a comment. -/
theorem trimChars_sliceOf {source : List Char} {first last : Token}
    (filled : first.start.offset < first.stop) (lastFilled : last.start.offset < last.stop)
    (forward : first.stop ≤ last.stop) (within : last.stop ≤ source.length)
    (firstEnds : ∀ c ∈ (first.slice source).head?, Text.isBlank c = false)
    (lastEnds : ∀ c ∈ (last.slice source).getLast?, Text.isBlank c = false) :
    Text.trimChars (sliceOf source first.start.offset last.stop) =
      sliceOf source first.start.offset last.stop := by
  have positive : first.start.offset < last.stop := by omega
  rw [Token.slice, head?_sliceOf source filled] at firstEnds
  rw [Token.slice, getLast?_sliceOf source lastFilled within] at lastEnds
  apply Text.trimChars_eq_self
  · rwa [head?_sliceOf source positive]
  · rwa [getLast?_sliceOf source positive within]

end ApiDescription
