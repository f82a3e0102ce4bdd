import ApiDescription.Grammar.Line
import ApiDescription.Grammar.TypeExpr

/-!
# Type declarations

A declaration is a struct with members between braces, or another name for a
type. Several declarations may share one `type` between parentheses.
-/

namespace ApiDescription.Rule

/-- The kinds of tokens a type can begin with. -/
def typeStarts : List Kind :=
  [.identifier, .mark .leftBracket, .mark .star, .keyword .map, .keyword .interface]

/-- What a member line begins with: its name, its type, and whether it is embedded. -/
def memberHead : Rule (Text × TypeExpr × Bool) := do
  if ← sees (.mark .star) then
    return ([], ← typeExpr, true)
  let name ← expectName
  if ← sees (.mark .dot) then
    return ([], .ofName (← qualifiedName name.text), true)
  if ← seesAny typeStarts then
    return (name.text, ← typeExpr, false)
  return ([], .ofName name.text, true)

/-- One member line: a name and a type, or an embedded type, then a tag and a
comment if there are any. -/
def member (docs : List Text) : Rule Member := do
  let line := (← current).start.line
  let (name, type, embedded) ← memberHead
  let tag ← if ← sees .rawText then Token.text <$> advance else pure []
  let comment ← trailingComment line
  lineEnd
  return { name, type, tag, comment, docs, embedded }

/-- One member with its docs, or `none` behind the closing brace. -/
def member? : Rule (Option Member) := do
  let docs ← docs
  if ← accepts (.mark .rightBrace) then return none
  if ← sees .endOfText then fail fun _ => .unterminatedStruct
  return some (← member docs)

/-- The members of a struct and its closing brace. -/
def members : Rule (List Member) := many member?

/-- One declaration without the word `type`. -/
def typeBody (docs : List Text) : Rule TypeDecl := do
  let name := (← expectName).text
  if ← accepts (.keyword .struct) then
    let _ ← expect (.mark .leftBrace)
    return .struct name (← members) docs
  if ← accepts (.mark .leftBrace) then
    return .struct name (← members) docs
  let _ ← accepts (.mark .equals)
  let target ← typeExpr
  lineEnd
  return .alias name (some target) docs

/-- One declaration of a group with its docs, or `none` behind the closing
parenthesis. -/
def groupedType? : Rule (Option TypeDecl) := do
  let docs ← docs
  if ← accepts (.mark .rightParen) then return none
  if ← sees .endOfText then fail fun _ => .unterminatedTypes
  return some (← typeBody docs)

/-- The word `type` and one declaration, or a group of them. The docs above a
group document none of its types. -/
def typeDecls (docs : List Text) : Rule (List TypeDecl) := do
  let _ ← expect (.keyword .type)
  if ← accepts (.mark .leftParen) then
    many groupedType?
  else
    return [← typeBody docs]

end ApiDescription.Rule
