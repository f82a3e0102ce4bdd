/-!
# Log records

A record has a level, the part of the program it comes from, and a text.
-/

namespace ApiDescription

/-- The levels of log records. -/
inductive LogLevel where
  | debug | info | warning | error | critical
  deriving DecidableEq, Repr, Inhabited

namespace LogLevel

/-- Every level, from the lowest on. -/
def all : List LogLevel := [.debug, .info, .warning, .error, .critical]

/-- The name of a level. -/
def name : LogLevel → String
  | .debug => "DEBUG"
  | .info => "INFO"
  | .warning => "WARNING"
  | .error => "ERROR"
  | .critical => "CRITICAL"

/-- The rank of a level; a higher rank is more severe. -/
def rank : LogLevel → Nat
  | .debug => 10
  | .info => 20
  | .warning => 30
  | .error => 40
  | .critical => 50

/-- The level of a name. -/
def ofName? (name : String) : Option LogLevel := all.find? fun level => level.name = name

end LogLevel

/-- A record of the log. -/
structure LogRecord where
  level : LogLevel
  component : String
  text : String
  deriving DecidableEq, Repr

/-- The line a record is shown as. -/
def LogRecord.line (record : LogRecord) : String :=
  record.level.name ++ " " ++ record.component ++ ": " ++ record.text

end ApiDescription
