import ApiDescription.Proofs.Spec.Fields

/-!
# Records and their JSON values

What a record is encoded as is decoded to the record. Every kind of record leaves
out other fields, and what is left out is the default of its field, at every depth.
The lists of fields say in one place what is written under which key.
-/

namespace ApiDescription.Spec

/-- The keys and the values of a map. -/
def stringsOf (values : Properties) : List Text :=
  values.entries.flatMap fun entry => [entry.1, entry.2]

/-- The texts of the metadata. -/
def Metadata.strings (info : Metadata) : List Text :=
  [info.title, info.desc, info.author, info.date, info.version, info.email] ++
    stringsOf info.properties

/-- The texts of a field. -/
def Field.strings (field : Field) : List Text :=
  [field.name, field.type, field.tag, field.comment] ++ field.docs

/-- The texts of a struct. -/
def Struct.strings (struct : Struct) : List Text :=
  [struct.name, struct.package, struct.typeName, struct.rawName] ++
    struct.fields.flatMap Field.strings ++ struct.docs ++ stringsOf struct.enums

/-- The texts of an import. -/
def Import.strings (file : Import) : List Text :=
  [file.value, file.asPackage] ++ file.types.flatMap Struct.strings

/-- The texts of the settings of a service. -/
def Server.strings (server : Server) : List Text :=
  [server.group, server.pathPrefix, server.auth, server.timeout] ++ server.middleware

/-- The texts of a route. -/
def Route.strings (route : Route) : List Text :=
  [route.handler, route.method, route.path, route.request, route.response] ++
    stringsOf route.doc ++ route.docs ++ stringsOf route.server

/-- The texts of a service. -/
def Service.strings (service : Service) : List Text :=
  service.name :: service.server.strings ++ service.routes.flatMap Route.strings

/-- The texts of a spec, the keys of its maps among them. -/
def strings (spec : Spec) : List Text :=
  spec.version :: spec.info.strings ++ spec.imports.flatMap Import.strings ++
    spec.types.flatMap Struct.strings ++ spec.services.flatMap Service.strings

/-- Whether no text has a lone surrogate. -/
def AreTextual (texts : List Text) : Prop := ∀ text ∈ texts, text.isTextual = true

section Strings

variable {α : Type}

theorem areTextual_cons {text : Text} {rest : List Text} :
    AreTextual (text :: rest) ↔ text.isTextual = true ∧ AreTextual rest :=
  List.forall_mem_cons

theorem areTextual_append {first second : List Text} :
    AreTextual (first ++ second) ↔ AreTextual first ∧ AreTextual second :=
  List.forall_mem_append

theorem areTextual_flatMap {values : List α} {strings : α → List Text} :
    AreTextual (values.flatMap strings) ↔ ∀ value ∈ values, AreTextual (strings value) := by
  simp only [AreTextual, List.mem_flatMap]
  exact ⟨fun textual value isValue text isText => textual text ⟨value, isValue, isText⟩,
    fun textual text ⟨value, isValue, isText⟩ => textual value isValue text isText⟩

theorem areTextual_stringsOf {values : Properties} :
    AreTextual (stringsOf values) ↔
      ∀ entry ∈ values.entries, entry.1.isTextual = true ∧ entry.2.isTextual = true := by
  simp only [stringsOf, areTextual_flatMap, areTextual_cons]
  simp [AreTextual]

end Strings

/-- The fields of the metadata. -/
def Metadata.written (info : Metadata) : List (Text × Written) :=
  [("title", some (.text info.title)), ("desc", some (.text info.desc)),
   ("author", some (.text info.author)), ("date", some (.text info.date)),
   ("version", some (.text info.version)), ("email", some (.text info.email)),
   ("properties", some (mapping info.properties))]

/-- The fields of a struct's field. -/
def Field.written (field : Field) : List (Text × Written) :=
  [("name", some (.text field.name)), ("type", some (.text field.type)),
   ("tag", writtenUnless field.tag.isEmpty (.text field.tag)),
   ("comment", writtenUnless field.comment.isEmpty (.text field.comment)),
   ("docs", writtenUnless field.docs.isEmpty (texts field.docs)),
   ("is_inline", some (.bool field.embedded)), ("optional", some (.bool field.optional))]

/-- The fields of a struct. -/
def Struct.written (struct : Struct) : List (Text × Written) :=
  [("name", some (.text struct.name)),
   ("package", writtenUnless struct.package.isEmpty (.text struct.package)),
   ("type_name", writtenUnless struct.typeName.isEmpty (.text struct.typeName)),
   ("raw_name", writtenUnless struct.rawName.isEmpty (.text struct.rawName)),
   ("fields", some (.list (struct.fields.map Field.encode))),
   ("docs", writtenUnless struct.docs.isEmpty (texts struct.docs)),
   ("enums", writtenUnless struct.enums.isEmpty (mapping struct.enums))]

/-- The fields of an import. -/
def Import.written (file : Import) : List (Text × Written) :=
  [("value", some (.text file.value)),
   ("as_package", writtenUnless file.asPackage.isEmpty (.text file.asPackage)),
   ("types", writtenUnless file.types.isEmpty (.list (file.types.map Struct.encode)))]

/-- The fields of the settings of a service. -/
def Server.written (server : Server) : List (Text × Written) :=
  [("group", some (.text server.group)), ("prefix", some (.text server.pathPrefix)),
   ("auth", some (.text server.auth)), ("middleware", some (texts server.middleware)),
   ("timeout", some (.text server.timeout))]

/-- The fields of a route. -/
def Route.written (route : Route) : List (Text × Written) :=
  [("handler", some (.text route.handler)), ("method", some (.text route.method)),
   ("path", some (.text route.path)), ("request_type", some (.text route.request)),
   ("response_type", some (.text route.response)), ("doc", some (mapping route.doc)),
   ("docs", writtenUnless route.docs.isEmpty (texts route.docs)),
   ("at_server_annotation", writtenUnless route.server.isEmpty (mapping route.server))]

/-- The fields of a service. -/
def Service.written (service : Service) : List (Text × Written) :=
  [("name", some (.text service.name)), ("server", some service.server.encode),
   ("routes", some (.list (service.routes.map Route.encode)))]

/-- The fields of a spec. -/
def written (spec : Spec) : List (Text × Written) :=
  [("syntax", some (.text spec.version)), ("info", some spec.info.encode),
   ("imports", some (.list (spec.imports.map Import.encode))),
   ("types", some (.list (spec.types.map Struct.encode))),
   ("services", some (.list (spec.services.map Service.encode)))]

theorem Metadata.encode_eq (info : Metadata) : info.encode = .object (present info.written) := rfl

theorem Field.encode_eq (field : Field) : field.encode = .object (present field.written) := by
  simp only [encode, written, present_shown, present_writtenUnless, present_nil, always,
    unlessBlank, unlessNone, List.append_assoc, List.cons_append, List.nil_append]

theorem Struct.encode_eq (struct : Struct) :
    struct.encode = .object (present struct.written) := by
  simp only [encode, written, present_shown, present_writtenUnless, present_nil, always,
    unlessBlank, unlessNone, unlessEmpty, List.append_assoc, List.cons_append,
    List.nil_append, List.append_nil]

theorem Import.encode_eq (file : Import) : file.encode = .object (present file.written) := by
  simp only [encode, written, present_shown, present_writtenUnless, present_nil, always,
    unlessBlank, unlessNone, List.cons_append, List.nil_append, List.append_nil]

theorem Server.encode_eq (server : Server) :
    server.encode = .object (present server.written) := rfl

theorem Route.encode_eq (route : Route) : route.encode = .object (present route.written) := by
  simp only [encode, written, present_shown, present_writtenUnless, present_nil, always,
    unlessNone, unlessEmpty, List.cons_append, List.nil_append, List.append_nil]

theorem Service.encode_eq (service : Service) :
    service.encode = .object (present service.written) := rfl

theorem encode_eq (spec : Spec) : spec.encode = .object (present spec.written) := rfl

/-- The keys of the metadata. -/
theorem Metadata.areKeys_written (info : Metadata) : AreKeys (info.written.map Prod.fst) :=
  areKeys_ofString ["title", "desc", "author", "date", "version", "email", "properties"] (by simp)

/-- The keys of a struct's field. -/
theorem Field.areKeys_written (field : Field) : AreKeys (field.written.map Prod.fst) :=
  areKeys_ofString ["name", "type", "tag", "comment", "docs", "is_inline", "optional"] (by simp)

/-- The keys of a struct. -/
theorem Struct.areKeys_written (struct : Struct) : AreKeys (struct.written.map Prod.fst) :=
  areKeys_ofString ["name", "package", "type_name", "raw_name", "fields", "docs", "enums"] (by simp)

/-- The keys of an import. -/
theorem Import.areKeys_written (file : Import) : AreKeys (file.written.map Prod.fst) :=
  areKeys_ofString ["value", "as_package", "types"] (by simp)

/-- The keys of the settings of a service. -/
theorem Server.areKeys_written (server : Server) : AreKeys (server.written.map Prod.fst) :=
  areKeys_ofString ["group", "prefix", "auth", "middleware", "timeout"] (by simp)

/-- The keys of a route. -/
theorem Route.areKeys_written (route : Route) : AreKeys (route.written.map Prod.fst) :=
  areKeys_ofString
    ["handler", "method", "path", "request_type", "response_type", "doc", "docs",
     "at_server_annotation"] (by simp)

/-- The keys of a service. -/
theorem Service.areKeys_written (service : Service) : AreKeys (service.written.map Prod.fst) :=
  areKeys_ofString ["name", "server", "routes"] (by simp)

/-- The keys of a spec. -/
theorem areKeys_written (spec : Spec) : AreKeys (spec.written.map Prod.fst) :=
  areKeys_ofString ["syntax", "info", "imports", "types", "services"] (by simp)

/-- The metadata are decoded to themselves. -/
theorem Metadata.encodes {info : Metadata} (textual : AreTextual info.strings) (depth : Nat) :
    Encodes (depth + 2) (record decode) info.encode info := by
  simp only [strings, areTextual_append, areTextual_cons, areTextual_stringsOf] at textual
  obtain ⟨⟨titled, described, authored, dated, versioned, mailed, -⟩, entries⟩ := textual
  have keys := info.areKeys_written
  have title : Keeps (depth + 1) _ _ _ info.title := .always titled
  have desc : Keeps (depth + 1) _ _ _ info.desc := .always described
  have author : Keeps (depth + 1) _ _ _ info.author := .always authored
  have date : Keeps (depth + 1) _ _ _ info.date := .always dated
  have version : Keeps (depth + 1) _ _ _ info.version := .always versioned
  have email : Keeps (depth + 1) _ _ _ info.email := .always mailed
  have properties : Keeps (depth + 1) _ .empty _ info.properties := .shown (.mapping entries)
  rw [encode_eq]
  refine .record keys ?_ ?_
  · simp only [written, List.forall_mem_cons]
    exact ⟨title.plain, desc.plain, author.plain, date.plain, version.plain, email.plain,
      properties.plain, List.forall_mem_nil _⟩
  · simp only [decode, textField, mapField]
    refine seqLeft_onlyKeys rfl ?_
    rw [withDefault_present keys 0 title rfl, withDefault_present keys 1 desc rfl,
      withDefault_present keys 2 author rfl, withDefault_present keys 3 date rfl,
      withDefault_present keys 4 version rfl, withDefault_present keys 5 email rfl,
      withDefault_present keys 6 properties rfl]
    rfl

/-- A struct's field is decoded to itself. -/
theorem Field.encodes {field : Field} (textual : AreTextual field.strings) (depth : Nat) :
    Encodes (depth + 2) (record decode) field.encode field := by
  simp only [strings, areTextual_append, areTextual_cons] at textual
  obtain ⟨⟨named, typed, tagged, commented, -⟩, documented⟩ := textual
  have keys := field.areKeys_written
  have name : Encodes (depth + 1) _ _ field.name := .text named
  have type : Encodes (depth + 1) _ _ field.type := .text typed
  have tag : Keeps (depth + 1) _ _ _ field.tag := .unlessBlank tagged
  have comment : Keeps (depth + 1) _ _ _ field.comment := .unlessBlank commented
  have docs : Keeps (depth + 1) _ _ _ field.docs := .unlessNone (.texts documented)
  have embedded : Keeps (depth + 1) _ false _ field.embedded := .shown (.truth _)
  have optional : Keeps (depth + 1) _ false _ field.optional := .shown (.truth _)
  rw [encode_eq]
  refine .record keys ?_ ?_
  · simp only [written, List.forall_mem_cons]
    exact ⟨name.plain_shown, type.plain_shown, tag.plain, comment.plain, docs.plain,
      embedded.plain, optional.plain, List.forall_mem_nil _⟩
  · simp only [decode, textField, textsField]
    refine seqLeft_onlyKeys rfl ?_
    rw [required_present keys 0 name rfl, required_present keys 1 type rfl,
      withDefault_present keys 2 tag rfl, withDefault_present keys 3 comment rfl,
      withDefault_present keys 4 docs rfl, withDefault_present keys 5 embedded rfl,
      withDefault_present keys 6 optional rfl]
    rfl

/-- A struct is decoded to itself. -/
theorem Struct.encodes {struct : Struct} (textual : AreTextual struct.strings) (depth : Nat) :
    Encodes (depth + 4) (record decode) struct.encode struct := by
  simp only [strings, areTextual_append, areTextual_cons, areTextual_flatMap,
    areTextual_stringsOf] at textual
  obtain ⟨⟨⟨⟨named, packaged, typed, raw, -⟩, members⟩, documented⟩, entries⟩ := textual
  have keys := struct.areKeys_written
  have name : Encodes (depth + 3) _ _ struct.name := .text named
  have package : Keeps (depth + 3) _ _ _ struct.package := .unlessBlank packaged
  have typeName : Keeps (depth + 3) _ _ _ struct.typeName := .unlessBlank typed
  have rawName : Keeps (depth + 3) _ _ _ struct.rawName := .unlessBlank raw
  have fields : Keeps (depth + 3) _ [] _ struct.fields :=
    .shown (.list fun field isField => Field.encodes (members field isField) depth)
  have docs : Keeps (depth + 3) _ _ _ struct.docs := .unlessNone (.texts documented)
  have enums : Keeps (depth + 3) _ _ _ struct.enums := .unlessEmpty entries
  rw [encode_eq]
  refine .record keys ?_ ?_
  · simp only [written, List.forall_mem_cons]
    exact ⟨name.plain_shown, package.plain, typeName.plain, rawName.plain, fields.plain,
      docs.plain, enums.plain, List.forall_mem_nil _⟩
  · simp only [decode, textField, textsField, mapField]
    refine seqLeft_onlyKeys rfl ?_
    rw [required_present keys 0 name rfl, withDefault_present keys 1 package rfl,
      withDefault_present keys 2 typeName rfl, withDefault_present keys 3 rawName rfl,
      withDefault_present keys 4 fields rfl, withDefault_present keys 5 docs rfl,
      withDefault_present keys 6 enums rfl]
    rfl

/-- An import is decoded to itself. -/
theorem Import.encodes {file : Import} (textual : AreTextual file.strings) (depth : Nat) :
    Encodes (depth + 6) (record decode) file.encode file := by
  simp only [strings, areTextual_append, areTextual_cons, areTextual_flatMap] at textual
  obtain ⟨⟨valued, packaged, -⟩, structs⟩ := textual
  have keys := file.areKeys_written
  have value : Encodes (depth + 5) _ _ file.value := .text valued
  have asPackage : Keeps (depth + 5) _ _ _ file.asPackage := .unlessBlank packaged
  have types : Keeps (depth + 5) _ _ _ file.types :=
    .unlessNone (.list fun struct isStruct => Struct.encodes (structs struct isStruct) depth)
  rw [encode_eq]
  refine .record keys ?_ ?_
  · simp only [written, List.forall_mem_cons]
    exact ⟨value.plain_shown, asPackage.plain, types.plain, List.forall_mem_nil _⟩
  · simp only [decode, textField]
    refine seqLeft_onlyKeys rfl ?_
    rw [required_present keys 0 value rfl, withDefault_present keys 1 asPackage rfl,
      withDefault_present keys 2 types rfl]
    rfl

/-- The settings of a service are decoded to themselves. -/
theorem Server.encodes {server : Server} (textual : AreTextual server.strings) (depth : Nat) :
    Encodes (depth + 2) (record decode) server.encode server := by
  simp only [strings, areTextual_append, areTextual_cons] at textual
  obtain ⟨⟨grouped, prefixed, authorized, timed, -⟩, names⟩ := textual
  have keys := server.areKeys_written
  have group : Keeps (depth + 1) _ _ _ server.group := .always grouped
  have pathPrefix : Keeps (depth + 1) _ _ _ server.pathPrefix := .always prefixed
  have auth : Keeps (depth + 1) _ _ _ server.auth := .always authorized
  have middleware : Keeps (depth + 1) _ [] _ server.middleware := .shown (.texts names)
  have timeout : Keeps (depth + 1) _ _ _ server.timeout := .always timed
  rw [encode_eq]
  refine .record keys ?_ ?_
  · simp only [written, List.forall_mem_cons]
    exact ⟨group.plain, pathPrefix.plain, auth.plain, middleware.plain, timeout.plain,
      List.forall_mem_nil _⟩
  · simp only [decode, textField, textsField]
    refine seqLeft_onlyKeys rfl ?_
    rw [withDefault_present keys 0 group rfl, withDefault_present keys 1 pathPrefix rfl,
      withDefault_present keys 2 auth rfl, withDefault_present keys 3 middleware rfl,
      withDefault_present keys 4 timeout rfl]
    rfl

/-- A route is decoded to itself. -/
theorem Route.encodes {route : Route} (textual : AreTextual route.strings) (depth : Nat) :
    Encodes (depth + 2) (record decode) route.encode route := by
  simp only [strings, areTextual_append, areTextual_cons, areTextual_stringsOf] at textual
  obtain ⟨⟨⟨⟨handled, called, located, requested, answered, -⟩, described⟩, documented⟩, own⟩ :=
    textual
  have keys := route.areKeys_written
  have handler : Keeps (depth + 1) _ _ _ route.handler := .always handled
  have method : Keeps (depth + 1) _ _ _ route.method := .always called
  have path : Keeps (depth + 1) _ _ _ route.path := .always located
  have request : Keeps (depth + 1) _ _ _ route.request := .always requested
  have response : Keeps (depth + 1) _ _ _ route.response := .always answered
  have doc : Keeps (depth + 1) _ .empty _ route.doc := .shown (.mapping described)
  have docs : Keeps (depth + 1) _ _ _ route.docs := .unlessNone (.texts documented)
  have server : Keeps (depth + 1) _ _ _ route.server := .unlessEmpty own
  rw [encode_eq]
  refine .record keys ?_ ?_
  · simp only [written, List.forall_mem_cons]
    exact ⟨handler.plain, method.plain, path.plain, request.plain, response.plain, doc.plain,
      docs.plain, server.plain, List.forall_mem_nil _⟩
  · simp only [decode, textField, textsField, mapField]
    refine seqLeft_onlyKeys rfl ?_
    rw [withDefault_present keys 0 handler rfl, withDefault_present keys 1 method rfl,
      withDefault_present keys 2 path rfl, withDefault_present keys 3 request rfl,
      withDefault_present keys 4 response rfl, withDefault_present keys 5 doc rfl,
      withDefault_present keys 6 docs rfl, withDefault_present keys 7 server rfl]
    rfl

/-- A service is decoded to itself. -/
theorem Service.encodes {service : Service} (textual : AreTextual service.strings)
    (depth : Nat) : Encodes (depth + 4) (record decode) service.encode service := by
  simp only [strings, areTextual_append, areTextual_cons, areTextual_flatMap] at textual
  obtain ⟨⟨named, settings⟩, calls⟩ := textual
  have keys := service.areKeys_written
  have name : Keeps (depth + 3) _ _ _ service.name := .always named
  have server : Keeps (depth + 3) _ {} _ service.server :=
    .shown (Server.encodes settings (depth + 1))
  have routes : Keeps (depth + 3) _ [] _ service.routes :=
    .shown (.list fun route isRoute => Route.encodes (calls route isRoute) depth)
  rw [encode_eq]
  refine .record keys ?_ ?_
  · simp only [written, List.forall_mem_cons]
    exact ⟨name.plain, server.plain, routes.plain, List.forall_mem_nil _⟩
  · simp only [decode, textField]
    refine seqLeft_onlyKeys rfl ?_
    rw [withDefault_present keys 0 name rfl, withDefault_present keys 1 server rfl,
      withDefault_present keys 2 routes rfl]
    rfl

/-- A spec is decoded to itself. -/
theorem encodes {spec : Spec} (textual : AreTextual spec.strings) (depth : Nat) :
    Encodes (depth + 8) decode spec.encode spec := by
  simp only [strings, areTextual_append, areTextual_cons, areTextual_flatMap] at textual
  obtain ⟨⟨⟨⟨versioned, known⟩, files⟩, structs⟩, offered⟩ := textual
  have keys := spec.areKeys_written
  have version : Keeps (depth + 7) _ _ _ spec.version := .always versioned
  have info : Keeps (depth + 7) _ {} _ spec.info := .shown (Metadata.encodes known (depth + 5))
  have imports : Keeps (depth + 7) _ [] _ spec.imports :=
    .shown (.list fun file isFile => Import.encodes (files file isFile) depth)
  have types : Keeps (depth + 7) _ [] _ spec.types :=
    .shown (.list fun struct isStruct => Struct.encodes (structs struct isStruct) (depth + 2))
  have services : Keeps (depth + 7) _ [] _ spec.services :=
    .shown (.list fun service isService => Service.encodes (offered service isService) (depth + 2))
  rw [encode_eq]
  refine .record keys ?_ ?_
  · simp only [written, List.forall_mem_cons]
    exact ⟨version.plain, info.plain, imports.plain, types.plain, services.plain,
      List.forall_mem_nil _⟩
  · simp only [decodeMembers, textField]
    refine seqLeft_onlyKeys rfl ?_
    rw [withDefault_present keys 0 version rfl, withDefault_present keys 1 info rfl,
      withDefault_present keys 2 imports rfl, withDefault_present keys 3 types rfl,
      withDefault_present keys 4 services rfl]
    rfl

end ApiDescription.Spec
