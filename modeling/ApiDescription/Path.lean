import ApiDescription.Text.Split

/-!
# Paths

A path is kept without its empty and `.` components, so that two spellings of a
path that differ only in those are equal. Parent components are kept: what they
lead to depends on the file tree. A path that starts with exactly two slashes
keeps both; any other number of leading slashes counts as one.
-/

namespace ApiDescription

/-- A path: the number of its leading slashes, and its components. -/
structure Path where
  root : Nat
  parts : List String
  deriving DecidableEq, Repr, Inhabited

namespace Path

/-- Reads a path. -/
def ofString (spelling : String) : Path :=
  let slashes := (spelling.toList.takeWhile (· = '/')).length
  { root := if slashes = 0 then 0 else if slashes = 2 then 2 else 1
    parts := (Text.splitString '/' spelling).filter fun part => part ≠ "" && part ≠ "." }

/-- Spells a path. A path without components is the current directory or the root. -/
def toString (path : Path) : String :=
  let body := String.intercalate "/" path.parts
  if path.root = 0 && path.parts.isEmpty then "."
  else String.ofList (List.replicate path.root '/') ++ body

/-- Whether a path can name something: no name holds the null character. -/
def isNameable (path : Path) : Bool := path.parts.all fun part => !part.toList.contains '\x00'

/-- The last component, if there is one. -/
def name (path : Path) : String := path.parts.getLast?.getD ""

/-- The part of the last component from its last dot on. A dot that begins or
ends the name starts no suffix. -/
def suffix (path : Path) : String :=
  let letters := path.name.toList
  let tail := (letters.reverse.takeWhile (· ≠ '.')).reverse
  if 0 < tail.length && tail.length + 1 < letters.length then String.ofList ('.' :: tail) else ""

/-- The path seen from a directory, if it lies in it by its spelling. -/
def relativeTo? (path directory : Path) : Option Path :=
  if path.root = directory.root && directory.parts.isPrefixOf path.parts then
    some ⟨0, path.parts.drop directory.parts.length⟩
  else none

/-- A path followed by another one, which stands alone if it starts at a root. -/
def join (path other : Path) : Path :=
  if other.root = 0 then ⟨path.root, path.parts ++ other.parts⟩ else other

end Path

end ApiDescription
