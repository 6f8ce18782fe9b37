import Dpll.Text.Split

/-!
# Sources of lines

Text arrives as bytes, and reading may break off. A line is what stands before a line feed, or what
is left at the end. Each line has to be valid UTF-8 by itself; one that is not cannot be read, and
neither can the line at which reading breaks off, whatever part of it has arrived.
-/

set_option autoImplicit false

namespace Dpll.Dimacs

/-- Bytes to be read, after which the text ends or reading fails. -/
structure Source where
  bytes : ByteArray
  broken : Bool := false

def decodeLine? (bytes : List UInt8) : Option (List Char) :=
  (String.fromUTF8? ⟨bytes.toArray⟩).map String.toList

/-- The line after the last line feed: there is none if the text has ended and nothing follows. -/
def Source.rest (broken : Bool) (bytes : List UInt8) : List (Option (List Char)) :=
  if broken then [none] else if bytes.isEmpty then [] else [decodeLine? bytes]

/-- The lines in order. A line that cannot be read is `none`. -/
def Source.lines (source : Source) : List (Option (List Char)) :=
  let pieces := Text.pieces (· == 10) source.bytes.data.toList
  pieces.dropLast.map decodeLine? ++ Source.rest source.broken (pieces.getLast?.getD [])

end Dpll.Dimacs
