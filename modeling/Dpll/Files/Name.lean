import Dpll.Text.Split

/-!
# File names

A name is a sequence of parts between slashes. How a file is packed is told by the extension of
the last part that is not empty and not a dot.
-/

set_option autoImplicit false

namespace Dpll.Files

inductive Packing where
  | plain
  | gzip
  | xz
deriving DecidableEq

def parts (name : String) : List String := (Text.pieces (· == '/') name.toList).map String.ofList

def significant (name : String) : List String :=
  (parts name).filter fun part => part ≠ "" ∧ part ≠ "."

/-- What follows the last point of a file name, unless the name begins with that point. -/
def extensionOf? (name : List Char) : Option (List Char) :=
  match Text.pieces (· == '.') name with
  | [] | [_] | [[], _] => none
  | pieces => pieces.getLast?

/-- The extension of a name. A name that leads to a parent directory has none. -/
def extension? (name : String) : Option String :=
  match (significant name).getLast? with
  | none | some ".." => none
  | some part => (extensionOf? part.toList).map String.ofList

/-- How the file of a name is packed; the case of letters does not matter. -/
def packing (name : String) : Packing :=
  match (extension? name).map String.toLower with
  | some "gz" => .gzip
  | some "xz" => .xz
  | _ => .plain

end Dpll.Files
