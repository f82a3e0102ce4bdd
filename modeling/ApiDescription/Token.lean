import ApiDescription.Text.Quoted
import ApiDescription.Token.Location

/-!
# Tokens

A token is a word, literal, comment or mark of a description together with the
place it was read from. Line feeds are tokens, because members, properties and
routes end with their line; comments are tokens, because they document what
stands next to them.
-/

namespace ApiDescription

/-- Words with a meaning of their own. Where a name is expected they are names. -/
inductive Keyword where
  | syntaxWord | info | importWord | type | service | returns | struct | map | interface
  deriving DecidableEq, Repr, Inhabited

/-- Words introduced by an at sign. -/
inductive Marker where
  | server | doc | handler
  deriving DecidableEq, Repr, Inhabited

/-- Characters that are tokens by themselves. -/
inductive Mark where
  | leftParen | rightParen | leftBrace | rightBrace | leftBracket | rightBracket
  | colon | comma | equals | star | dot
  deriving DecidableEq, Repr, Inhabited

/-- The kinds of tokens. -/
inductive Kind where
  | identifier | quotedText | rawText | number | path | comment
  | keyword (word : Keyword)
  | marker (marker : Marker)
  | mark (mark : Mark)
  | newline | endOfText
  deriving DecidableEq, Repr, Inhabited

/-- The spelling of a keyword. -/
def Keyword.spelling : Keyword → String
  | .syntaxWord => "syntax"
  | .info => "info"
  | .importWord => "import"
  | .type => "type"
  | .service => "service"
  | .returns => "returns"
  | .struct => "struct"
  | .map => "map"
  | .interface => "interface"

/-- Every keyword. -/
def Keyword.all : List Keyword :=
  [.syntaxWord, .info, .importWord, .type, .service, .returns, .struct, .map, .interface]

/-- The keyword a word spells, if it spells one. -/
def Keyword.ofSpelling? (word : String) : Option Keyword :=
  Keyword.all.find? fun keyword => keyword.spelling = word

/-- The spelling of a marker, with its at sign. -/
def Marker.spelling : Marker → String
  | .server => "@server"
  | .doc => "@doc"
  | .handler => "@handler"

/-- The marker a word spells, if it spells one. -/
def Marker.ofSpelling? (word : String) : Option Marker :=
  [Marker.server, .doc, .handler].find? fun marker => marker.spelling = word

/-- The character of a mark. -/
def Mark.char : Mark → Char
  | .leftParen => '('
  | .rightParen => ')'
  | .leftBrace => '{'
  | .rightBrace => '}'
  | .leftBracket => '['
  | .rightBracket => ']'
  | .colon => ':'
  | .comma => ','
  | .equals => '='
  | .star => '*'
  | .dot => '.'

/-- Every mark. -/
def Mark.all : List Mark :=
  [.leftParen, .rightParen, .leftBrace, .rightBrace, .leftBracket, .rightBracket,
   .colon, .comma, .equals, .star, .dot]

/-- The mark a character stands for, if it is one. -/
def Mark.ofChar? (c : Char) : Option Mark := Mark.all.find? fun mark => mark.char = c

/-- How messages name a kind of token. -/
def Kind.label : Kind → String
  | .identifier => "IDENTIFIER"
  | .quotedText => "STRING"
  | .rawText => "RAW_STRING"
  | .number => "NUMBER"
  | .path => "PATH"
  | .comment => "COMMENT"
  | .keyword spelled => spelled.spelling
  | .marker spelled => spelled.spelling
  | .mark spelled => String.singleton spelled.char
  | .newline => "NEWLINE"
  | .endOfText => "EOF"

/-- A token: its kind, its value (decoded for quoted text), where it starts, and
the offset just after its last character. -/
structure Token where
  kind : Kind
  value : String
  start : Location
  stop : Nat
  deriving DecidableEq, Repr, Inhabited

namespace Token

/-- A token on one line, for diagnostics: kind, quoted value, line and column. -/
def display (token : Token) : String :=
  "Token(" ++ token.kind.label ++ ", " ++ Text.quoted token.value ++ ", " ++
    toString token.start.line ++ ":" ++ toString token.start.column ++ ")"

/-- How a message names the token it found. Line ends and the end of the text
have no spelling worth quoting. -/
def describe (token : Token) : String :=
  match token.kind with
  | .newline | .endOfText => token.kind.label
  | _ => Text.quoted token.value

/-- The value of a token as a text. -/
def text (token : Token) : Text := Text.ofString token.value

/-- Whether a token may stand where a name is expected. -/
def isName (token : Token) : Bool :=
  match token.kind with
  | .identifier | .keyword _ => true
  | _ => false

end Token

end ApiDescription
