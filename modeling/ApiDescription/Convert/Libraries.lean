import ApiDescription.Json
import ApiDescription.Settings

/-!
# What a run is asked, and what it leaves to libraries

The arguments are made into a request by an option parser. Messages are printed by a console
for people, and echoed for programs; a tree is written as YAML by an emitter. None of these is
part of this program, so a run is a function of them, too. What they are relied on for is
stated here: an echo changes nothing but control sequences, and YAML shows no escape
characters.
-/

namespace ApiDescription.Convert

/-- The ways to print diagnostics: for people, or for an editor. -/
inductive ErrorFormat where
  | human | vscode
  deriving DecidableEq, Repr, Inhabited

/-- What is asked of a conversion. Whether compact or indented output is asked for may be left
open. -/
structure Options where
  file : Path
  format : Option OutputFormat := none
  compact : Option Bool := none
  indent : Option Nat := none
  output : Option Path := none
  config : Option Path := none
  errorFormat : ErrorFormat := .human
  verbose : Bool := false
  deriving DecidableEq, Repr

/-- What arguments come to. The option parser may answer them by itself, with help or with a
complaint. -/
inductive Request where
  | answered (code : Nat) (output : String) (errors : List String)
  | version
  | convert (options : Options)
  deriving DecidableEq, Repr

/-- The libraries a run uses, and the interpreter it runs in. What is printed and echoed is
given without the line feed that ends it. -/
structure Libraries where
  request : (arguments : List String) → Request
  /-- How a label, a colon and a text are printed for people, the first two in colour. -/
  printed : (label text : String) → String
  /-- How a message is shown on a stream that is no terminal. -/
  echoed : (message : String) → String
  /-- A tree as YAML, or why it has none. -/
  yaml : (tree : Json) → Except String Text
  interpreter : String

/-- The character that begins control sequences. -/
def escapeCharacter : Char := '\x1b'

/-- What libraries are relied on for. -/
structure Libraries.Documented (libraries : Libraries) : Prop where
  /-- Only control sequences are left out of a message, and they begin with the escape
  character. -/
  echoed : ∀ message : String, escapeCharacter ∉ message.toList →
    libraries.echoed message = message
  /-- Characters that are not printable are written with escapes. -/
  yaml : ∀ tree text, libraries.yaml tree = .ok text → .char escapeCharacter ∉ text

end ApiDescription.Convert
