import ApiDescription.Proofs.Document.Items

/-!
# Documents as they are read

Whatever text a document is read from, its items are sound, its docs and comments begin as
comments do, its info block repeats its properties, and its service is named after the first
service block of the text.
-/

namespace ApiDescription

/-- The named fields of an info block, under the names of the properties they repeat. -/
def Info.fields (info : Info) : List (String × Text) :=
  [("title", info.title), ("desc", info.desc), ("author", info.author),
   ("version", info.version), ("email", info.email)]

/-- The named fields of an info block that is read are the properties of their names. -/
theorem Info.fields_ofProperties (properties : Properties) :
    ∀ field ∈ (ofProperties properties).fields, field.2 = properties.text field.1 := by
  simp [fields, ofProperties]

/-- The first service block of a text: the token that names it, and its routes. None of the
declarations in front of it is a service block. -/
def FirstService (text : List Char) (name : Token) (routes : RouteGroup) : Prop :=
  ∃ tokens earlier stream next, tokenize text = .ok tokens ∧
    Rounds (Rule.declaration? text) (.ofTokens tokens) earlier stream ∧
    serviceNames earlier = [] ∧ Rule.NamesService text stream name ∧
    Rule.declaration? text stream = .ok (some (.group name.text routes)) next

/-- What holds of every document that is read from a text. -/
structure Document.Sound (text : List Char) (document : Document) : Prop where
  items : ∀ item ∈ document.items, item.Sound
  remarks : ∀ item ∈ document.items, item.Remarked
  info : ∀ field ∈ document.info.fields, field.2 = document.info.properties.text field.1
  named : document.Named
  first : ∀ routes ∈ document.service.groups.head?, ∃ name,
    FirstService text name routes ∧ document.service.name = name.text

namespace Document

/-- The info block of a document repeats its properties if every info block among the
declarations does. -/
theorem info_ofDeclarations {source : Option Path} {declarations : List Declaration}
    (repeats : ∀ block, .info block ∈ declarations → block = .ofProperties block.properties) :
    (ofDeclarations source declarations).info =
      .ofProperties (ofDeclarations source declarations).info.properties := by
  have later (document : Document)
      (start : document.info = .ofProperties document.info.properties) :
      (declarations.foldl add document).info =
        .ofProperties (declarations.foldl add document).info.properties := by
    induction declarations generalizing document with
    | nil => exact start
    | cons declaration declarations inductionHypothesis =>
      refine inductionHypothesis (fun block member => repeats block (.tail _ member)) _ ?_
      cases declaration with
      | info block => exact repeats block (.head _)
      | _ => exact start
  exact later { source } rfl

/-- Every info block that is read repeats its properties. -/
theorem info_of_rounds {text : List Char} {first last : Stream} {declarations : List Declaration}
    (run : Rounds (Rule.declaration? text) first declarations last) {block : Info}
    (member : .info block ∈ declarations) : block = .ofProperties block.properties := by
  obtain ⟨stream, next, -, read⟩ :=
    exists_round_of_mem run (fun _ => True) (fun _ _ _ _ _ => trivial) trivial member
  obtain ⟨_, middle, -, readInfo⟩ := Rule.exists_readBetween_of_declaration? read
  obtain ⟨_, _, _, readBlock⟩ := bind_eq_ok_iff.mp readInfo
  obtain ⟨_, _, _, answered⟩ := bind_eq_ok_iff.mp readBlock
  cases answered
  rfl

/-- Declarations without a service block leave the service as it is. -/
theorem service_foldl {declarations : List Declaration} (none : serviceNames declarations = [])
    (document : Document) : (declarations.foldl add document).service = document.service := by
  induction declarations generalizing document with
  | nil => rfl
  | cons declaration declarations inductionHypothesis =>
    cases declaration with
    | group name routes => exact nomatch none
    | _ => exact inductionHypothesis none _

/-- A service that has a name and routes keeps its name and the first of its groups. -/
theorem service_foldl_of_named (declarations : List Declaration) {document : Document}
    {routes : RouteGroup} (named : document.service.name ≠ [])
    (first : document.service.groups.head? = some routes) :
    (declarations.foldl add document).service.name = document.service.name ∧
      (declarations.foldl add document).service.groups.head? = some routes := by
  induction declarations generalizing document with
  | nil => exact ⟨rfl, first⟩
  | cons declaration declarations inductionHypothesis =>
    cases declaration with
    | group name others =>
      have kept : (document.add (.group name others)).service.name = document.service.name :=
        if_neg named
      rw [← kept] at named ⊢
      exact inductionHypothesis named (by simp [add, first])
    | _ => exact inductionHypothesis named first

/-- The first service block among declarations gives the service its name and its first group. -/
theorem service_ofDeclarations (source : Option Path) {earlier later : List Declaration}
    {name : Text} {routes : RouteGroup} (none : serviceNames earlier = []) (named : name ≠ []) :
    let service := (ofDeclarations source (earlier ++ .group name routes :: later)).service
    service.name = name ∧ service.groups.head? = some routes := by
  have before := service_foldl none { source }
  dsimp only
  rw [ofDeclarations, List.foldl_append, List.foldl_cons]
  have given : ((earlier.foldl add { source }).add (.group name routes)).service.name = name := by
    simp [add, before]
  have first : ((earlier.foldl add { source }).add (.group name routes)).service.groups.head? =
      some routes := by
    simp [add, before]
  obtain ⟨keptName, keptFirst⟩ := service_foldl_of_named later (given.symm ▸ named) first
  exact ⟨keptName.trans given, keptFirst⟩

/-- Among declarations there is no service block, or a first one. -/
theorem exists_first_group (declarations : List Declaration) :
    serviceNames declarations = [] ∨ ∃ earlier name routes later,
      declarations = earlier ++ .group name routes :: later ∧ serviceNames earlier = [] := by
  induction declarations with
  | nil => exact .inl rfl
  | cons declaration declarations inductionHypothesis =>
    cases declaration with
    | group name routes => exact .inr ⟨[], name, routes, declarations, rfl, rfl⟩
    | _ =>
      rcases inductionHypothesis with none | ⟨earlier, name, routes, later, rfl, none⟩
      · exact .inl none
      · exact .inr ⟨_ :: earlier, name, routes, later, rfl, none⟩

/-- The first group of a service is that of the first service block of the text, which names the
service. -/
theorem exists_firstService {source : Option Path} {text : List Char} {tokens : List Token}
    {declarations : List Declaration} {last : Stream} (lexed : tokenize text = .ok tokens)
    (ended : (Stream.ofTokens tokens).Ended) (names : NamesGroups declarations)
    (run : Rounds (Rule.declaration? text) (.ofTokens tokens) declarations last)
    {group : RouteGroup}
    (isFirst : group ∈ (ofDeclarations source declarations).service.groups.head?) :
    ∃ name, FirstService text name group ∧
      (ofDeclarations source declarations).service.name = name.text := by
  rcases exists_first_group declarations with none | ⟨earlier, found, routes, later, rfl, none⟩
  · rw [ofDeclarations, service_foldl none { source }] at isFirst
    exact nomatch isFirst
  · obtain ⟨stream, before, behind⟩ := run.exists_of_append
    cases behind with
    | @more _ next _ _ _ read _ =>
      obtain ⟨count, rfl⟩ := (Rule.forward_declaration? text).rounds before ended
      obtain ⟨name, isName, rfl⟩ := Rule.exists_name_of_declaration? (ended.skip count) read
      have named : name.text ≠ [] := names name.text routes (by simp)
      obtain ⟨given, first⟩ := service_ofDeclarations source none named
      obtain rfl : routes = group := Option.some.inj (first.symm.trans isFirst)
      exact ⟨name, ⟨tokens, earlier, _, next, lexed, before, none, isName, read⟩, given⟩

/-- Every document that is read is sound, whatever text it is read from. -/
theorem sound_of_parse {file : Path} {text : List Char} {document : Document}
    (read : parse ⟨file, text⟩ = .ok document) : document.Sound text := by
  obtain ⟨tokens, finish, declarations, left, lexed, ends, inside, readAll, names, rfl⟩ :=
    exists_declarations_of_parse read
  have items := sound_items read
  have ended : Stream.Ended ⟨tokens, finish, 0⟩ := ends
  obtain ⟨last, run, -⟩ := (many_eq_ok_iff (Rule.shrinks_declaration? text) ended).mp readAll
  have stream : Stream.ofTokens (tokens ++ [finish]) = ⟨tokens, finish, 0⟩ :=
    Stream.ofTokens_append (fun token member => (inside token member).1) ends
  constructor
  case items => exact fun item member => (items item member).1
  case remarks => exact fun item member => (items item member).2
  case info =>
    rw [info_ofDeclarations fun block => info_of_rounds run]
    exact Info.fields_ofProperties _
  case named => exact Named.foldl names (by simp [Named])
  case first =>
    rw [← stream] at ended run
    exact fun group isFirst => exists_firstService lexed ended names run isFirst

/-- A description with an info block, an embedded member with a comment, a member with a tag, and a
service whose route names its handler above its line. -/
theorem sound_of_parse_users :
    let file : Path := Path.ofString "a.api"
    let text := ("info (\n title: T\n)\n// u\ntype U \x7b\n *B // b\n N []int \x60n\x60\n\x7d\n" ++
      "service s \x7b\n @handler h\n GET /u/:id (U)\n\x7d\n").toList
    let base : Member := { type := .pointerTo (.named "B"), comment := "// b", embedded := true }
    let numbers : Member :=
      { name := "N", type := .arrayOf [] (.primitive "int"), tag := "\x60n\x60" }
    let find : Route :=
      { handler := "h", method := "get", path := "/u/:id", request := some (.named "U") }
    let document : Document :=
      { info := { title := "T", properties := .ofList [("title", "T")] }
        types := [.struct "U" [base, numbers] ["// u"]]
        service := ⟨"s", [⟨none, [find]⟩]⟩
        source := some file }
    parse ⟨file, text⟩ = .ok document ∧ document.Sound text := by
  intro file text base numbers find document
  have read : parse ⟨file, text⟩ = .ok document := by decide +kernel
  exact ⟨read, sound_of_parse read⟩

end Document

end ApiDescription
