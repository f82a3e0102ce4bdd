import ApiDescription.Grammar.Document
import ApiDescription.Proofs.Token.Pieces

/-!
# Well-formed documents

The documents that can be written down: what stands without quotes has to be a
lexeme of its kind, and what is read together with something else has to agree with
it. Texts between quotes may hold any characters, and docs and comments may be of
either form.
-/

namespace ApiDescription

namespace Text

/-- A text that stands for itself as a token of some kind. -/
structure IsLexeme (kind : Kind) (text : Text) : Prop where
  textual : text.isTextual = true
  spelled : Lexeme.Spells kind text.chars (String.ofList text.chars)

/-- Whether a text is read as one token of some kind that stands for itself. -/
def readsAs (kind : Kind) (text : Text) : Bool :=
  match text.chars with
  | [] => false
  | c :: following =>
    match Lexeme.read (if kind = .comment then none else some ':') c following with
    | .ok found => found = (kind, String.ofList text.chars, text.chars.length)
    | .error _ => false

/-- A text is a lexeme if the scanner reads it as one. -/
theorem isLexeme_iff {kind : Kind} {text : Text} :
    text.IsLexeme kind ↔ text.isTextual = true ∧ text.readsAs kind = true := by
  constructor
  · rintro ⟨textual, spelled⟩
    obtain ⟨c, following, split⟩ := List.exists_cons_of_ne_nil spelled.ne_nil
    have suits : Lexeme.Suits (if kind = .comment then none else some ':') kind text.chars := by
      intro _ _
      by_cases comment : kind = .comment <;> simp [comment]
    have read := Lexeme.read_of_spells
      (show c :: following = text.chars ++ [] by rw [split, List.append_nil]) spelled suits
      (by simp)
    refine ⟨textual, ?_⟩
    simp only [readsAs, split] at read ⊢
    rw [read]
    exact decide_eq_true rfl
  · rintro ⟨textual, found⟩
    unfold readsAs at found
    split at found
    · exact nomatch found
    · next c following split =>
      split at found
      · next result read =>
        rw [of_decide_eq_true found] at read
        obtain ⟨slice, more, whole, length, spelled, -, -⟩ := Lexeme.read_eq_ok_iff.mp read
        rw [← split] at whole
        have same : slice = text.chars :=
          (List.IsPrefix.eq_of_length ⟨more, whole.symm⟩ length)
        rw [same] at spelled
        exact ⟨textual, spelled⟩
      · exact nomatch found

instance (kind : Kind) (text : Text) : Decidable (text.IsLexeme kind) :=
  decidable_of_iff _ isLexeme_iff.symm

/-- A name: an identifier or a keyword. -/
def IsName (text : Text) : Prop := text.IsLexeme (Scan.wordKind (String.ofList text.chars))

/-- A text that is absent or a token of some kind. -/
def IsOptional (kind : Kind) (text : Text) : Prop := text = [] ∨ text.IsLexeme kind

instance (text : Text) : Decidable text.IsName := inferInstanceAs (Decidable (text.IsLexeme _))

instance (kind : Kind) (text : Text) : Decidable (text.IsOptional kind) :=
  inferInstanceAs (Decidable (_ ∨ _))

end Text

/-- Docs that are comments. -/
def AreDocs (docs : List Text) : Prop := ∀ doc ∈ docs, doc.IsLexeme .comment

instance (docs : List Text) : Decidable (AreDocs docs) :=
  inferInstanceAs (Decidable (∀ doc ∈ docs, doc.IsLexeme .comment))

open Piece

/-- The piece of a name. -/
def Piece.name (text : Text) : Piece := plain (Scan.wordKind (String.ofList text.chars)) text

/-- A type expression and how it is written. -/
inductive TypeExpr.Written : TypeExpr → List Piece → Prop
  | name {word : Text} (lexeme : word.IsLexeme .identifier) :
      Written (.ofName word) [plain .identifier word]
  | qualified {first second : Text} (lexeme : first.IsLexeme .identifier)
      (secondLexeme : second.IsLexeme .identifier) :
      Written (.ofName (first ++ Text.ofString "." ++ second))
        [plain .identifier first, mark .dot, plain .identifier second]
  | interface :
      Written (.interface emptyInterface) [keyword .interface, mark .leftBrace, mark .rightBrace]
  | pointer {target : TypeExpr} {pieces : List Piece} (written : Written target pieces) :
      Written (.pointerTo target) (mark .star :: pieces)
  | slice {value : TypeExpr} {pieces : List Piece} (written : Written value pieces) :
      Written (.arrayOf [] value) (mark .leftBracket :: mark .rightBracket :: pieces)
  | array {size : Text} {value : TypeExpr} {pieces : List Piece}
      (lexeme : size.IsLexeme .number) (written : Written value pieces) :
      Written (.arrayOf size value)
        (mark .leftBracket :: plain .number size :: mark .rightBracket :: pieces)
  | map {key value : TypeExpr} {keyPieces pieces : List Piece} (keyWritten : Written key keyPieces)
      (written : Written value pieces) :
      Written (.mapOf key value)
        (keyword .map :: mark .leftBracket :: (keyPieces ++ mark .rightBracket :: pieces))

/-- A type expression that can be written down. -/
def TypeExpr.WellFormed (type : TypeExpr) : Prop := ∃ pieces, type.Written pieces

/-- What a member line begins with: the name and the type of a member, and how they are
written. Without a name of its own a member is embedded, and then a keyword may name its type. -/
inductive Member.Headed : (name : Text) → TypeExpr → (embedded : Bool) → List Piece → Prop
  | named {name : Text} {type : TypeExpr} {pieces : List Piece} (isName : name.IsName)
      (written : type.Written pieces) :
      Headed name type false (.name name :: .blank :: pieces)
  | pointer {target : TypeExpr} {pieces : List Piece} (written : target.Written pieces) :
      Headed [] (.pointerTo target) true (mark .star :: pieces)
  | embedded {name : Text} (isName : name.IsName) : Headed [] (.ofName name) true [.name name]
  | qualified {first second : Text} (isName : first.IsName)
      (lexeme : second.IsLexeme .identifier) :
      Headed [] (.ofName (first ++ Text.ofString "." ++ second)) true
        [.name first, mark .dot, plain .identifier second]

/-- A member that can be written down. A comment stands on the line on which the member begins, so
that there can be none behind a tag of several lines. -/
structure Member.WellFormed (member : Member) : Prop where
  headed : ∃ pieces, Headed member.name member.type member.embedded pieces
  tag : member.tag.IsOptional .rawText
  comment : member.comment.IsOptional .comment
  sameLine : '\n' ∈ member.tag.chars → member.comment = []
  docs : AreDocs member.docs

/-- A type declaration that can be written down. -/
inductive TypeDecl.WellFormed : TypeDecl → Prop
  | struct {name : Text} {members : List Member} {docs : List Text} (isName : name.IsName)
      (fields : ∀ member ∈ members, member.WellFormed) (areDocs : AreDocs docs) :
      WellFormed (.struct name members docs)
  | synonym {name : Text} {target : TypeExpr} {docs : List Text} (isName : name.IsName)
      (written : target.WellFormed) (areDocs : AreDocs docs) :
      WellFormed (.alias name (some target) docs)

/-- Properties that can be written down: keys are names, and values any texts. -/
def PropertiesWellFormed (properties : Properties) : Prop :=
  ∀ entry ∈ properties.entries, entry.1.IsName ∧ entry.2.isTextual = true

instance (properties : Properties) : Decidable (PropertiesWellFormed properties) :=
  inferInstanceAs (Decidable (∀ entry ∈ properties.entries, _ ∧ _))

/-- A `@doc` annotation that can be written down: it holds properties or a text. -/
def DocNote.WellFormed (note : DocNote) : Prop :=
  match note.properties with
  | some properties => PropertiesWellFormed properties ∧ note.text = []
  | none => note.text.isTextual = true

/-- A route that can be written down. Two slashes in front of its path would be a comment. -/
structure Route.WellFormed (route : Route) : Prop where
  handler : route.handler.IsName
  method : ∃ method ∈ httpMethods, route.method = Text.ofString method
  path : route.path.IsLexeme .path
  noComment : route.path.chars[1]? ≠ some '/'
  request : ∀ type ∈ route.request, type.WellFormed
  response : ∀ type ∈ route.response, type.WellFormed
  doc : route.doc.WellFormed
  docs : AreDocs route.docs
  comment : route.comment.IsOptional .comment
  server : ∀ properties ∈ route.server, PropertiesWellFormed properties

/-- A group of routes that can be written down. -/
structure RouteGroup.WellFormed (group : RouteGroup) : Prop where
  server : ∀ properties ∈ group.server, PropertiesWellFormed properties
  routes : ∀ route ∈ group.routes, route.WellFormed

/-- A document that can be written down. Its info block has nothing beside its properties, and its
service has a name if it has routes. -/
structure Document.WellFormed (document : Document) : Prop where
  version : document.version.isTextual = true
  info : document.info = Info.ofProperties document.info.properties
  properties : PropertiesWellFormed document.info.properties
  imports : ∀ file ∈ document.imports, file.isTextual = true
  types : ∀ type ∈ document.types, type.WellFormed
  groups : ∀ group ∈ document.service.groups, group.WellFormed
  service : if document.service.groups = [] then document.service.name = []
    else document.service.name.IsName

end ApiDescription
