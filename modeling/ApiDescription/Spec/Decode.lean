import ApiDescription.Checked
import ApiDescription.Json.Reader
import ApiDescription.Spec

/-!
# Specs from JSON values

Every record accepts its own keys only. Absent fields take their defaults, except
the few that have none. Of a repeated key the last value counts. All issues are
reported: for each record first those of its fields in their order, then its
unknown keys in the order of their first occurrences.
-/

namespace ApiDescription.Spec

open Json (Members)

/-- A value that has to be an object, as a record. -/
def record {α : Type} (decode : Members → Checked α) : Json → Checked α
  | .object members => decode members
  | _ => .misfit .notRecord

/-- A field that has to be there. -/
def required {α : Type} (members : Members) (key : Text) (decode : Json → Checked α) :
    Checked α :=
  match Json.member? members key with
  | some value => (decode value).under (.key key)
  | none => (Checked.misfit .missing).under (.key key)

/-- A field with a default. -/
def withDefault {α : Type} (members : Members) (key : Text) (default : α)
    (decode : Json → Checked α) : Checked α :=
  match Json.member? members key with
  | some value => (decode value).under (.key key)
  | none => pure default

/-- Reports keys as unknown. -/
def unknownKeys : List Text → Checked Unit
  | [] => pure ()
  | key :: rest => (Checked.misfit (α := Unit) .unknownKey).under (.key key) *> unknownKeys rest

/-- Reports the keys that a record does not have, each of them once. -/
def onlyKeys (known : List Text) (members : Members) : Checked Unit :=
  unknownKeys ((members.map Prod.fst).filter (!known.contains ·)).eraseDups

/-- A value that has to be a list. -/
def listOf {α : Type} (decode : Json → Checked α) : Json → Checked (List α)
  | .list items => Checked.each decode 0 items
  | _ => .misfit .notList

/-- A value that has to be a map of texts. -/
def mapOfTexts : Json → Checked Properties
  | .object members => OrderedMap.ofList <$> Json.checkEntries members
  | _ => .misfit .notMap

/-- The words for true. -/
def trueWords : List String := ["1", "t", "y", "on", "yes", "true"]

/-- The words for false. -/
def falseWords : List String := ["0", "f", "n", "no", "off", "false"]

/-- A word for a truth value, in any mixture of cases. -/
def boolOfWord (word : String) : Checked Bool :=
  let lower := word.toLower
  if trueWords.contains lower then .valid true
  else if falseWords.contains lower then .valid false
  else .misfit .unreadableBool

/-- An integer for a truth value. -/
def boolOfInt (value : Int) : Checked Bool :=
  if value = 0 then .valid false
  else if value = 1 then .valid true
  else .misfit .unreadableBool

/-- A number for a truth value. Integers of 64 bits could be meant as one, and so could
numbers with a point that are such an integer; other numbers are of another type. With
a point the least integer of 64 bits does not count. -/
def boolOfNumber : Json.Number → Checked Bool
  | .integer value =>
    if -9223372036854775808 ≤ value ∧ value ≤ 9223372036854775807 then boolOfInt value
    else .misfit .notBool
  | .decimal value =>
    match (Binary64.ofDecimal value).toInt? with
    | some value =>
      if -9223372036854775808 < value ∧ value ≤ 9223372036854775807 then boolOfInt value
      else .misfit .notBool
    | none => .misfit .notBool
  | _ => .misfit .notBool

/-- A value that has to be a truth value. -/
def truth : Json → Checked Bool
  | .bool value => .valid value
  | .number value => boolOfNumber value
  | .text value =>
    match value.toString? with
    | some word => boolOfWord word
    | none => .misfit .unreadableBool
  | _ => .misfit .notBool

/-- A text field with an empty default. -/
def textField (members : Members) (key : Text) : Checked Text :=
  withDefault members key [] Json.checkText

/-- A list of texts with an empty default. -/
def textsField (members : Members) (key : Text) : Checked (List Text) :=
  withDefault members key [] (listOf Json.checkText)

/-- A map of texts with an empty default. -/
def mapField (members : Members) (key : Text) : Checked Properties :=
  withDefault members key .empty mapOfTexts

/-- The metadata of an object's members. -/
def Metadata.decode (members : Members) : Checked Metadata :=
  Metadata.mk <$> textField members "title" <*> textField members "desc" <*>
    textField members "author" <*> textField members "date" <*>
    textField members "version" <*> textField members "email" <*>
    mapField members "properties" <*
    onlyKeys ["title", "desc", "author", "date", "version", "email", "properties"] members

/-- The field of an object's members. -/
def Field.decode (members : Members) : Checked Field :=
  Field.mk <$> required members "name" Json.checkText <*>
    required members "type" Json.checkText <*>
    textField members "tag" <*> textField members "comment" <*> textsField members "docs" <*>
    withDefault members "is_inline" false truth <*> withDefault members "optional" false truth <*
    onlyKeys ["name", "type", "tag", "comment", "docs", "is_inline", "optional"] members

/-- The struct of an object's members. -/
def Struct.decode (members : Members) : Checked Struct :=
  Struct.mk <$> required members "name" Json.checkText <*>
    textField members "package" <*> textField members "type_name" <*>
    textField members "raw_name" <*>
    withDefault members "fields" [] (listOf (record Field.decode)) <*>
    textsField members "docs" <*> mapField members "enums" <*
    onlyKeys ["name", "package", "type_name", "raw_name", "fields", "docs", "enums"] members

/-- The import of an object's members. -/
def Import.decode (members : Members) : Checked Import :=
  Import.mk <$> required members "value" Json.checkText <*>
    textField members "as_package" <*>
    withDefault members "types" [] (listOf (record Struct.decode)) <*
    onlyKeys ["value", "as_package", "types"] members

/-- The settings of an object's members. -/
def Server.decode (members : Members) : Checked Server :=
  Server.mk <$> textField members "group" <*> textField members "prefix" <*>
    textField members "auth" <*> textsField members "middleware" <*>
    textField members "timeout" <*
    onlyKeys ["group", "prefix", "auth", "middleware", "timeout"] members

/-- The route of an object's members. -/
def Route.decode (members : Members) : Checked Route :=
  Route.mk <$> textField members "handler" <*> textField members "method" <*>
    textField members "path" <*> textField members "request_type" <*>
    textField members "response_type" <*> mapField members "doc" <*>
    textsField members "docs" <*> mapField members "at_server_annotation" <*
    onlyKeys ["handler", "method", "path", "request_type", "response_type", "doc", "docs",
      "at_server_annotation"] members

/-- The service of an object's members. -/
def Service.decode (members : Members) : Checked Service :=
  Service.mk <$> textField members "name" <*>
    withDefault members "server" {} (record Server.decode) <*>
    withDefault members "routes" [] (listOf (record Route.decode)) <*
    onlyKeys ["name", "server", "routes"] members

/-- The spec of an object's members. -/
def decodeMembers (members : Members) : Checked Spec :=
  Spec.mk <$> textField members "syntax" <*>
    withDefault members "info" {} (record Metadata.decode) <*>
    withDefault members "imports" [] (listOf (record Import.decode)) <*>
    withDefault members "types" [] (listOf (record Struct.decode)) <*>
    withDefault members "services" [] (listOf (record Service.decode)) <*
    onlyKeys ["syntax", "info", "imports", "types", "services"] members

/-- The spec of a JSON value. -/
def decode : Json → Checked Spec := record decodeMembers

/-- The spec written as JSON text, or what is wrong with the text. -/
def read (text : List Char) : Checked Spec :=
  match Json.readStrict? text with
  | some value => decode value
  | none => .misfit .notJson

end ApiDescription.Spec
