import ApiDescription.Grammar.Property

/-!
# Declarations at the head of a description

The version of the language, the info block, and the imports.
-/

namespace ApiDescription

/-- The info block with the given properties. Its named fields are the properties
of the same names. -/
def Info.ofProperties (properties : Properties) : Info :=
  { title := properties.text "title"
    desc := properties.text "desc"
    author := properties.text "author"
    version := properties.text "version"
    email := properties.text "email"
    properties }

namespace Rule

/-- `syntax = "v1"`, with a comment behind it. -/
def version : Rule Text := do
  let start ← expect (.keyword .syntaxWord)
  let _ ← expect (.mark .equals)
  let version ← expect .quotedText
  let _ ← trailingComment start.start.line
  lineEnd
  return version.text

/-- `info ( ... )`. -/
def info (source : List Char) : Rule Info := do
  let _ ← expect (.keyword .info)
  return Info.ofProperties (← propertyBlock source)

/-- One file of an import group, or `none` behind the closing parenthesis. -/
def groupedImport? : Rule (Option Text) := do
  skipSpacing
  if ← accepts (.mark .rightParen) then return none
  if ← sees .endOfText then fail fun _ => .unterminatedImports
  return some (← expect .quotedText).text

/-- `import "file"`, or a group of files between parentheses. -/
def imports : Rule (List Text) := do
  let _ ← expect (.keyword .importWord)
  if ← accepts (.mark .leftParen) then
    many groupedImport?
  else
    let file ← expect .quotedText
    lineEnd
    return [file.text]

end Rule

end ApiDescription
