import ApiDescription.Document
import ApiDescription.Reading
import ApiDescription.Text.Blank
import ApiDescription.Text.Numeral
import ApiDescription.Text.Split

/-!
# Struct tags

The tag of a member holds entries such as `json:"name,optional"`: a key, and in
quotes a name with options behind it. Entries are searched from left to right;
what lies between them is passed over.
-/

namespace ApiDescription

/-- One entry of a tag. -/
structure TagEntry where
  key : Text
  name : Text
  options : List Text := []
  deriving DecidableEq, Repr, Inhabited

namespace Tag

/-- Whether a code point begins a key. -/
def beginsKey (point : CodePoint) : Bool := point.satisfies fun c => c.isAlpha || c = '_'

/-- Whether a code point continues a key. -/
def inKey (point : CodePoint) : Bool :=
  point.satisfies fun c => Text.isLetterOrNumeral c || c = '_' || c = '-'

/-- The text up to an unescaped quote, and what follows the quote. A backslash
takes the next code point with it, which may not be a line feed. -/
def quotedValue? : Text → Option (Text × Text)
  | [] | [.char '\\'] => none
  | .char '\\' :: next :: rest =>
    if next = .char '\n' then none
    else (quotedValue? rest).map fun (value, left) => (.char '\\' :: next :: value, left)
  | point :: rest =>
    if point = .char '"' then some ([], rest)
    else (quotedValue? rest).map fun (value, left) => (point :: value, left)

/-- The key and the value of an entry that begins here, and what follows it. -/
def entryHere? (text : Text) : Option ((Text × Text) × Text) :=
  match text with
  | [] => none
  | point :: rest =>
    if beginsKey point then
      match rest.dropWhile inKey with
      | .char ':' :: .char '"' :: body =>
        (quotedValue? body).map fun (value, left) =>
          ((point :: rest.takeWhile inKey, value), left)
      | _ => none
    else none

/-- The leftmost entry of a text, and what follows it. -/
def leftmost? : Text → Option ((Text × Text) × Text)
  | [] => none
  | point :: rest =>
    match entryHere? (point :: rest) with
    | some found => some found
    | none => leftmost? rest

/-- Reads the leftmost entry of what is left. -/
def entryRound : EStateM Empty Text (Option (Text × Text)) := fun text =>
  match leftmost? text with
  | some (entry, rest) => .ok (some entry) rest
  | none => .ok none []

/-- The entry with a key and a quoted value. Blanks around options do not count. -/
def entryOf (key value : Text) : TagEntry :=
  match Text.splitOn (.char ',') value with
  | [] => { key, name := [] }
  | name :: options => { key, name, options := options.map Text.trim }

/-- The entries of a tag, with or without the backticks around it. -/
def parse (tag : Text) : List TagEntry :=
  let body := Text.trimWhile (· = .char '\x60') tag
  (collect entryRound body).items.map fun (key, value) => entryOf key value

/-- An entry as it is written in a tag. -/
def renderEntry (entry : TagEntry) : Text :=
  entry.key ++ Text.ofString ":\"" ++
    [CodePoint.char ','].intercalate (entry.name :: entry.options) ++ Text.ofString "\""

/-- Entries as a tag, without the backticks around it: one blank stands between two
entries. -/
def renderBody (entries : List TagEntry) : Text :=
  [CodePoint.char ' '].intercalate (entries.map renderEntry)

/-- Entries as a tag. -/
def render (entries : List TagEntry) : Text :=
  .char '\x60' :: renderBody entries ++ [.char '\x60']

/-- The keys whose entries may mark a member optional. -/
def optionalKeys : List Text := ["json", "form"]

end Tag

/-- Whether an entry for JSON bodies or forms carries the option `optional`. -/
def Member.isOptional (member : Member) : Bool :=
  (Tag.parse member.tag).any fun entry =>
    Tag.optionalKeys.contains entry.key && entry.options.contains (Text.ofString "optional")

end ApiDescription
