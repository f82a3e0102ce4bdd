import ApiDescription.Proofs.Document.RoundTrip
import ApiDescription.Proofs.Spec.NormalForm

/-!
# Settings from the text to the normal form

The properties of an info block and of the annotation above a service block may have any keys in
any order, and a key more than once. What the normal form makes of them is said of the properties
as they are written: the last value of a key counts, and a key that is absent has the empty text.
-/

namespace ApiDescription

/-- The last value that is written for a key, or the empty text if there is none. -/
def lastValue (entries : List (Text × Text)) (key : String) : Text :=
  ((entries.filter (·.1 = Text.ofString key)).getLast?.map Prod.snd).getD []

/-- The text of a key is the last value that is written for it. -/
theorem OrderedMap.text_ofList (entries : List (Text × Text)) (key : String) :
    (ofList entries).text (Text.ofString key) = lastValue entries key := by
  rw [text, get?_ofList, lookup_reverse, lastValue]

namespace Spec

/-- Metadata that are what the properties of an info block say. -/
structure Metadata.Tells (metadata : Metadata) (entries : List (Text × Text)) : Prop where
  title : metadata.title = lastValue entries "title"
  desc : metadata.desc = lastValue entries "desc"
  author : metadata.author = lastValue entries "author"
  date : metadata.date = lastValue entries "date"
  version : metadata.version = lastValue entries "version"
  email : metadata.email = lastValue entries "email"
  properties : metadata.properties.LastWins entries

/-- The keys of an annotation that have a meaning for a whole service. -/
def Server.keys : List String := ["group", "prefix", "auth", "jwt", "middleware", "timeout"]

/-- Whether an entry is one of those that have a meaning for a whole service. -/
def Server.knows (entry : Text × Text) : Bool := keys.any fun key => entry.1 = Text.ofString key

/-- Settings that are what the properties of an annotation say. The names of the middleware are
what stands between the commas, and entries under other keys say nothing: the settings are those
of the other entries alone. -/
structure Server.Tells (server : Server) (entries : List (Text × Text)) : Prop where
  group : server.group = lastValue entries "group"
  pathPrefix : server.pathPrefix = lastValue entries "prefix"
  timeout : server.timeout = lastValue entries "timeout"
  auth : server.auth =
    if lastValue entries "auth" = [] then lastValue entries "jwt" else lastValue entries "auth"
  middleware : ∃ parts : List Text, [.char ','].intercalate parts = lastValue entries "middleware" ∧
    (∀ part ∈ parts, .char ',' ∉ part) ∧
    server.middleware = (parts.map Text.trim).filter (· ≠ [])
  alone : server = ofProperties (.ofList (entries.filter knows))

/-- The metadata are the same in both forms of an info block, with properties and without. -/
theorem Metadata.ofInfo_ofProperties (properties : Properties) :
    ofInfo (.ofProperties properties) =
      { title := properties.text "title"
        desc := properties.text "desc"
        author := properties.text "author"
        date := properties.text "date"
        version := properties.text "version"
        email := properties.text "email"
        properties } := by
  unfold ofInfo
  split
  · next isEmpty =>
    obtain rfl : properties = .empty := OrderedMap.ext_entries (List.isEmpty_iff.mp isEmpty)
    rfl
  · rfl

/-- The metadata of an info block are what its properties say. -/
theorem Metadata.tells_ofInfo (entries : List (Text × Text)) :
    (ofInfo (.ofProperties (.ofList entries))).Tells entries := by
  rw [ofInfo_ofProperties]
  constructor
  case properties => exact OrderedMap.lastWins_ofList entries
  all_goals exact OrderedMap.text_ofList entries _

/-- Other keys have no influence on the value of a known one. -/
theorem Server.lastValue_filter (entries : List (Text × Text)) {key : String} (known : key ∈ keys) :
    lastValue (entries.filter knows) key = lastValue entries key := by
  have same : (entries.filter knows).filter (·.1 = Text.ofString key) =
      entries.filter (·.1 = Text.ofString key) := by
    rw [List.filter_filter]
    refine List.filter_congr fun entry _ => ?_
    by_cases found : entry.1 = Text.ofString key
    · have isKnown : knows entry = true := List.any_eq_true.mpr ⟨key, known, by simpa using found⟩
      simp [found, isKnown]
    · simp [found]
  rw [lastValue, same, lastValue]

/-- The settings depend on nothing but the values of known keys. -/
theorem Server.ofProperties_congr {first second : Properties}
    (same : ∀ key ∈ keys, first.text (Text.ofString key) = second.text (Text.ofString key)) :
    ofProperties first = ofProperties second := by
  simp only [keys, List.mem_cons, List.not_mem_nil, or_false, forall_eq_or_imp, forall_eq] at same
  obtain ⟨group, pathPrefix, auth, jwt, middleware, timeout⟩ := same
  rw [ofProperties, ofProperties, authOf, authOf, group, pathPrefix, auth, jwt, middleware, timeout]

/-- The settings of an annotation are what its properties say. -/
theorem Server.tells_ofProperties (entries : List (Text × Text)) :
    (ofProperties (.ofList entries)).Tells entries where
  group := OrderedMap.text_ofList entries _
  pathPrefix := OrderedMap.text_ofList entries _
  timeout := OrderedMap.text_ofList entries _
  auth := by
    rw [← OrderedMap.text_ofList, ← OrderedMap.text_ofList]
    rfl
  middleware := by
    refine ⟨Text.splitOn (.char ',') (lastValue entries "middleware"),
      Text.intercalate_splitOn _ _, fun part member => Text.not_mem_of_mem_splitOn member, ?_⟩
    rw [← OrderedMap.text_ofList]
    rfl
  alone := ofProperties_congr fun key known => by
    rw [OrderedMap.text_ofList, OrderedMap.text_ofList, lastValue_filter entries known]

/-- Declarations without an info block leave the info block as it is. -/
theorem info_foldl {declarations : List Declaration}
    (none : declarations.any (·.isInfo) = false) (document : Document) :
    (declarations.foldl Document.add document).info = document.info := by
  induction declarations generalizing document with
  | nil => rfl
  | cons declaration declarations inductionHypothesis =>
    rw [List.any_cons, Bool.or_eq_false_iff] at none
    rw [List.foldl_cons, inductionHypothesis none.2]
    cases declaration with
    | info block => exact nomatch none.1
    | _ => rfl

/-- Service blocks without an annotation leave the settings as they are. -/
theorem settings_foldl {declarations : List Declaration}
    (plain : ∀ name group, .group name group ∈ declarations → group.server = none)
    (document : Document) :
    (declarations.foldl Document.add document).service.groups.foldl Server.after {} =
      document.service.groups.foldl Server.after {} := by
  induction declarations generalizing document with
  | nil => rfl
  | cons declaration declarations inductionHypothesis =>
    rw [List.foldl_cons,
      inductionHypothesis fun name group member => plain name group (.tail _ member)]
    cases declaration with
    | group name routes =>
      have unannotated : ∀ group ∈ [routes], group.server = none := by
        simpa using plain name routes (.head _)
      have stays := Server.foldl_after_of_none unannotated
      simp only [Document.add, List.foldl_append, stays]
    | _ => rfl

/-- Properties that are written in an info block or in an annotation, anywhere in a description,
are found in its normal form: the metadata are what the last info block says, and the settings of
the service are what the last annotation of a service block says. -/
theorem ofDocument_tells {entries : List (Text × Text)}
    (wellFormed : ∀ entry ∈ entries, entry.1.IsName ∧ entry.2.isTextual = true) (indent : Nat)
    {file : Path} {above below : List Char} {earlier later : List Declaration}
    (opening : Document.Opening above earlier) (read : declared below = .ok later) :
    (later.any (·.isInfo) = false → ∃ document,
      Document.parse ⟨file, above ++ (Line.text (Line.ofEntries indent "info" entries) ++ below)⟩ =
        .ok document ∧ (ofDocument document).info.Tells entries) ∧
    ((∃ name group rest, later = .group name group :: rest) →
      (∀ name group, .group name group ∈ later → group.server = none) → ∃ document service,
      Document.parse
          ⟨file, above ++ (Line.text (Line.ofEntries indent "@server" entries) ++ below)⟩ =
        .ok document ∧ (ofDocument document).services = [service] ∧ service.server.Tells entries) := by
  constructor
  · intro noInfo
    obtain ⟨pieces, written, collects⟩ := Rule.lists_infoEntries
      (Line.text (Line.ofEntries indent "info" entries) ++ below) wellFormed indent
    have whole := opening.declared_append
      (Document.declared_lines written ((collects _).heads later) read)
    refine ⟨_, Document.parse_of_declared whole file, ?_⟩
    rw [ofDocument, Document.ofDeclarations, List.foldl_append, List.foldl_append,
      info_foldl noInfo]
    exact Metadata.tells_ofInfo entries
  · rintro ⟨name, group, rest, rfl⟩ plain
    have whole := opening.declared_append
      (Document.declared_annotated wellFormed indent (plain name group (.head _)) read)
    refine ⟨_, _, Document.parse_of_declared whole file, rfl, ?_⟩
    rw [Service.ofService, Document.ofDeclarations, List.foldl_append, List.foldl_cons,
      settings_foldl fun name group member => plain name group (.tail _ member)]
    rw [Document.add, List.foldl_append]
    exact Server.tells_ofProperties entries

/-- Keys that are written twice, one of them a keyword, an `auth` that is empty at last, and names
of middleware with blanks and without a name between two commas. -/
theorem ofDocument_tells_twice :
    let entries : List (Text × Text) :=
      [("title", "a"), ("type", "x"), ("auth", "Basic"), ("title", "\"T\"\n"), ("jwt", "Jwt"),
       ("middleware", " Log ,,Trace"), ("auth", ""), ("prefix", "/v1")]
    let text (opening : String) : List Char :=
      "type t int\n\n".toList ++ (Line.text (Line.ofEntries 2 opening entries) ++
        "// d\nservice s \x7b\x7d".toList)
    let file : Path := Path.ofString "a.api"
    (∃ document, Document.parse ⟨file, text "info"⟩ = .ok document ∧
      (ofDocument document).info.title = Text.ofString "\"T\"\n" ∧
      (ofDocument document).info.date = [] ∧
      (ofDocument document).info.properties.entries.map Prod.fst =
        ["title", "type", "auth", "jwt", "middleware", "prefix"].map Text.ofString) ∧
    ∃ document service, Document.parse ⟨file, text "@server"⟩ = .ok document ∧
      (ofDocument document).services = [service] ∧
      service.server =
        { pathPrefix := "/v1", auth := "Jwt", middleware := ["Log", "Trace"] } := by
  intro entries text file
  have above : Document.Opening "type t int\n\n".toList _ :=
    .description (show declared "type t int".toList = .ok _ by rfl)
  have below : declared "// d\nservice s \x7b\x7d".toList = .ok [.group "s" {}] := by decide +kernel
  have wellFormed : ∀ entry ∈ entries, entry.1.IsName ∧ entry.2.isTextual = true := by
    decide +kernel
  obtain ⟨info, annotated⟩ := ofDocument_tells wellFormed 2 above below
  obtain ⟨document, read, tells⟩ := info (by decide)
  obtain ⟨other, service, readOther, services, server⟩ := annotated ⟨_, _, _, rfl⟩ (by simp)
  refine ⟨⟨document, read, ?_, ?_, ?_⟩, other, service, readOther, services, ?_⟩
  · exact tells.title.trans (by decide +kernel)
  · exact tells.date.trans (by decide +kernel)
  · exact tells.properties.keys.trans (by decide +kernel)
  · exact server.alone.trans (by decide +kernel)

end Spec

end ApiDescription
