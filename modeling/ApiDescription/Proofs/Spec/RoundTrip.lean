import ApiDescription.Proofs.Spec.Records

/-!
# Reading written specs

A spec is read back from its JSON text in every layout that can be carried out. The
text that a layout calls for is the same whether or not its indentation can be counted,
so that nothing else can keep a spec from being written and read back.
-/

namespace ApiDescription

/-- A layout can be carried out if its indentation can be counted. -/
theorem Json.Layout.breakdown?_eq_none_iff {layout : Json.Layout} :
    layout.breakdown? = none ↔ ∀ width, layout.indent = some width → IsCountable width := by
  unfold breakdown?
  cases layout.indent <;> simp

/-- A layout whose indentation cannot be counted is broken by it. -/
theorem Json.Layout.breakdown?_of_uncountable {layout : Json.Layout} {width : Int}
    (indented : layout.indent = some width) (uncountable : ¬IsCountable width) :
    layout.breakdown? = some .widthUncountable := by
  simp [breakdown?, indented, uncountable]

namespace Spec

/-- What a layout calls for is read as the spec. -/
theorem exists_print_eq {spec : Spec} (textual : AreTextual spec.strings)
    (layout : Json.Layout) :
    ∃ text, Json.print layout spec.encode = Text.ofChars text ∧ read text = .valid spec := by
  have encodes := Spec.encodes textual 192
  obtain ⟨printed, json⟩ := Json.readStrict?_print encodes.plain layout
  refine ⟨_, (Text.ofChars_chars printed).symm, ?_⟩
  rw [read, json]
  exact encodes.decoded

/-- A spec without lone surrogates is read back from its text, compact or with any indentation,
with or without characters beyond ASCII. It can be written if the indentation can be counted in
64 bits, and fails to be written for this reason only. -/
theorem read_write {spec : Spec} (textual : AreTextual spec.strings) (layout : Json.Layout) :
    ∃ text, Json.print layout spec.encode = Text.ofChars text ∧ read text = .valid spec ∧
      ((∀ width, layout.indent = some width → Json.Layout.IsCountable width) →
        Json.write layout spec.encode = .ok (Text.ofChars text)) ∧
      ∀ width, layout.indent = some width → ¬Json.Layout.IsCountable width →
        Json.write layout spec.encode = .error .widthUncountable := by
  obtain ⟨text, printed, readBack⟩ := exists_print_eq textual layout
  refine ⟨text, printed, readBack, fun countable => ?_, fun width indented uncountable => ?_⟩
  · rw [Json.write, Json.Layout.breakdown?_eq_none_iff.mpr countable, printed]
  · rw [Json.write, Json.Layout.breakdown?_of_uncountable indented uncountable]

/-- A spec whose texts need every kind of escape, with an import that declares types. -/
def escapes : Spec where
  version := "v1"
  info := { title := "\"A\\B\"", properties := .ofList [("clé", "\x01\t\n"), ("", "😀")] }
  imports := [{ value := "base.api", types := [{ name := "Base", docs := ["// ￿"] }] }]
  types :=
    [{ name := "User", enums := .ofList [("A", "\x7f"), ("B", "")],
       fields := [{ name := "ID", type := "int64", tag := "json:\"id\"", optional := true }] }]
  services :=
    [{ name := "user-api", server := { middleware := ["Auth", ""] },
       routes := [{ handler := "get", method := "get", path := "/users/:id",
                    doc := .ofList [("summary", "𝄞")] }] }]

/-- Any kind of escape is undone, on lines without indentation as well. -/
theorem read_write_escapes :
    AreTextual escapes.strings ∧
      ∃ text, Json.write { indent := some (-1), asciiOnly := true } escapes.encode =
        .ok (Text.ofChars text) ∧ read text = .valid escapes := by
  have textual : AreTextual escapes.strings :=
    show ∀ text ∈ escapes.strings, text.isTextual = true from by decide
  obtain ⟨text, -, readBack, written, -⟩ :=
    read_write textual { indent := some (-1), asciiOnly := true }
  refine ⟨textual, text, written fun width indented => ?_, readBack⟩
  cases indented
  decide

/-- An indentation that cannot be counted keeps even the empty spec from being written, a
negative one as well. -/
theorem not_forall_written :
    ¬ ∀ (spec : Spec) (layout : Json.Layout), AreTextual spec.strings →
      ∃ text, Json.write layout spec.encode = .ok (Text.ofChars text) ∧
        read text = .valid spec := by
  intro always
  have textual : AreTextual ({} : Spec).strings :=
    show ∀ text ∈ ({} : Spec).strings, text.isTextual = true from by decide
  obtain ⟨text, written, -⟩ := always {} { indent := some (-9223372036854775809) } textual
  have broken : Json.write { indent := some (-9223372036854775809) } ({} : Spec).encode =
      .error .widthUncountable := rfl
  exact nomatch broken.symm.trans written

end Spec

end ApiDescription
