import ApiDescription.Grammar.Document

/-!
# Commands on a token stream

The rules of the grammar may be asked for one by one, in any order, on one
stream. Whatever the order, and whether rules fail or not, the stream only moves
forward and never behind its end.
-/

namespace ApiDescription

/-- What can be asked of a stream. -/
inductive Command where
  | current
  | advance
  | sees (kinds : List Kind)
  | expect (kind : Kind)
  | expectName
  | skipSpacing
  | docs
  | trailingComment (line : Nat)
  | lineEnd
  | propertyValue
  | propertyBlock
  | version
  | info
  | imports
  | typeDecls (docs : List Text)
  | typeBody (docs : List Text)
  | members
  | member (docs : List Text)
  | typeExpr
  | serviceGroup
  | route (docs : List Text)
  | bodyType
  | document
  deriving DecidableEq, Repr

/-- What a command answers. -/
inductive Answer where
  | done
  | token (value : Token)
  | flag (value : Bool)
  | text (value : Text)
  | texts (values : List Text)
  | properties (value : Properties)
  | version (value : Text)
  | info (value : Info)
  | imports (files : List Text)
  | typeDecls (values : List TypeDecl)
  | typeDecl (value : TypeDecl)
  | members (values : List Member)
  | member (value : Member)
  | type (value : Option TypeExpr)
  | group (name : Text) (value : RouteGroup)
  | route (value : Route)
  | document (value : Document)
  deriving DecidableEq, Repr

/-- The rule a command stands for, on the tokens of a source. -/
def Command.rule (source : Source) : Command → Rule Answer
  | .current => .token <$> Rule.current
  | .advance => .token <$> Rule.advance
  | .sees kinds => .flag <$> Rule.seesAny kinds
  | .expect kind => .token <$> Rule.expect kind
  | .expectName => .token <$> Rule.expectName
  | .skipSpacing => Rule.skipSpacing *> pure .done
  | .docs => .texts <$> Rule.docs
  | .trailingComment line => .text <$> Rule.trailingComment line
  | .lineEnd => Rule.lineEnd *> pure .done
  | .propertyValue => .text <$> Rule.propertyValue source.text
  | .propertyBlock => .properties <$> Rule.propertyBlock source.text
  | .version => .version <$> Rule.version
  | .info => .info <$> Rule.info source.text
  | .imports => .imports <$> Rule.imports
  | .typeDecls above => .typeDecls <$> Rule.typeDecls above
  | .typeBody above => .typeDecl <$> Rule.typeBody above
  | .members => .members <$> Rule.members
  | .member above => .member <$> Rule.member above
  | .typeExpr => (.type ∘ some) <$> Rule.typeExpr
  | .serviceGroup => (fun read => .group read.1 read.2) <$> Rule.serviceGroup source.text
  | .route above => .route <$> Rule.route source.text above
  | .bodyType => .type <$> Rule.bodyType
  | .document => .document <$> Rule.document source.file source.text

/-- Carries out a command: its answer or error, and the stream behind it. -/
def Command.run (source : Source) (command : Command) (stream : Stream) :
    Except SyntaxError Answer × Stream :=
  match command.rule source stream with
  | .ok answer next => (.ok answer, next)
  | .error fault next => (.error fault, next)

/-- The stream behind a list of commands. -/
def Command.runAll (source : Source) (commands : List Command) (stream : Stream) : Stream :=
  commands.foldl (fun current command => (command.run source current).2) stream

end ApiDescription
