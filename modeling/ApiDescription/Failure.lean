/-!
# Failures

A failure is either one that a rule of this library names, with a reason of its own
kind, or a breakdown: a limit that no rule is about was met, or a value is of a shape
that no rule foresees. A breakdown ends whatever was going on, a batch included.

What the operating system refuses comes with a number and a reason. Whether that is
reported or a breakdown depends on what was being done.
-/

namespace ApiDescription

/-- An error that the operating system answers with. -/
structure OsError where
  number : Nat
  reason : String
  deriving DecidableEq, Repr, Inhabited

namespace OsError

/-- No entry of that name. -/
def noEntry : OsError := ⟨2, "No such file or directory"⟩

/-- A file where a directory is needed. -/
def notDirectory : OsError := ⟨20, "Not a directory"⟩

/-- A directory where a file is needed. -/
def isDirectory : OsError := ⟨21, "Is a directory"⟩

/-- A name, or a whole path, that is too long to be looked up. -/
def nameTooLong : OsError := ⟨36, "File name too long"⟩

/-- The numbers of the errors that mean that there is nothing to be found: no entry, no open
file, no directory, and links that lead around in a circle. -/
def absences : List Nat := [2, 9, 20, 40]

/-- Whether an error means that there is nothing to be found. -/
def meansAbsent (error : OsError) : Bool := absences.contains error.number

/-- What an error says. -/
def text (error : OsError) : String :=
  "[Errno " ++ toString error.number ++ "] " ++ error.reason

end OsError

/-- Why something broke down. -/
inductive Breakdown where
  /-- A path cannot be looked up. -/
  | notLookedUp (error : OsError)
  /-- A path that is opened holds the null character. -/
  | nullInPath
  /-- An integer has too many decimal digits to be read or shown. -/
  | integerTooLong
  /-- A configuration file is not UTF-8. -/
  | undecodableConfig
  /-- A section of a configuration file is no table. -/
  | sectionNoTable
  /-- An indentation cannot be counted in 64 bits. -/
  | widthUncountable
  /-- A text that is to be handed out holds a lone surrogate. -/
  | loneSurrogate
  deriving DecidableEq, Repr, Inhabited

/-- A failure for a reason that a rule names, or by a breakdown. -/
inductive Failure (ε : Type) where
  | reported (reason : ε)
  | broken (cause : Breakdown)
  deriving DecidableEq, Repr

end ApiDescription
