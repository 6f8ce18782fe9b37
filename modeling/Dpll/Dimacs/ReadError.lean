/-!
# Reading errors

What can be wrong with a file that should hold a formula. Every cause but the last two names the
line, counted from one; a header that is still missing at the end of the text is missing at line
zero.
-/

set_option autoImplicit false

namespace Dpll.Dimacs

inductive OpenError where
  | missing
  | nothingToUnpack
  | notPermitted
  | notDirectory
  | nameTooLong
  | nulInName
deriving DecidableEq

def OpenError.message : OpenError → String
  | missing => "No such file or directory (os error 2)"
  | nothingToUnpack => "entity not found"
  | notPermitted => "Permission denied (os error 13)"
  | notDirectory => "Not a directory (os error 20)"
  | nameTooLong => "File name too long (os error 36)"
  | nulInName => "file name contained an unexpected NUL byte"

inductive ReadError where
  | unopened (cause : OpenError)
  | unreadable (line : Nat)
  | missingHeader (line : Nat)
  | invalidHeader (line : Nat)
  | invalidLiteral (line : Nat)
  | variableOutOfRange (line number declared : Nat)
  | clauseCount (expected found : Nat)
deriving DecidableEq

def ReadError.message (file : String) : ReadError → String
  | unopened cause => s!"Failed to open file \"{file}\" ({cause.message})"
  | unreadable line => s!"Could not read line ({file}:{line})"
  | missingHeader line => s!"CNF header missing ({file}:{line})"
  | invalidHeader line => s!"CNF header invalid ({file}:{line})"
  | invalidLiteral line => s!"Could not parse literal ({file}:{line})"
  | variableOutOfRange line number declared =>
    s!"Variable {number} exceeds the {declared} declared in the header ({file}:{line})"
  | clauseCount expected found =>
    s!"Number of clauses in cnf incorrect; expected {expected}, found {found} ({file})"

end Dpll.Dimacs
