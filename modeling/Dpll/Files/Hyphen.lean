/-!
# Names that begin with a hyphen

The program that unpacks gzip files is given the name as its last argument, so it takes a name that
begins with a hyphen for a group of options. There is no file left to unpack then: the program
prints a text about itself, or it fails.
-/

set_option autoImplicit false

namespace Dpll.Files

inductive OptionAnswer where
  | text (line : String)
  | failure
deriving DecidableEq

def silentOptions : List Char := "acdfklmMnNqrtv123456789".toList

/-- What comes of the letters of a group: the first one that asks for a text is answered, and any
letter before it must be an option that takes no argument. -/
def answerLetters : List Char → OptionAnswer
  | [] => .failure
  | letter :: rest =>
    if letter = 'h' ∨ letter = 'H' then .text "Usage: gzip [OPTION]... [FILE]..."
    else if letter = 'V' ∨ letter = 'L' then .text "gzip 1.12"
    else if silentOptions.contains letter then answerLetters rest
    else .failure

/-- What comes of a name that is taken for options, or nothing for any other name. -/
def answerName? (name : String) : Option OptionAnswer :=
  match name.toList with
  | '-' :: letters => some (answerLetters letters)
  | _ => none

end Dpll.Files
