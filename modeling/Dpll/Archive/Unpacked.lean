/-!
# Unpacked data

Unpacking a compressed file gives bytes, and then either the file turns out to be complete or it
does not. What was unpacked before a fault was found is not taken back.
-/

set_option autoImplicit false

namespace Dpll.Archive

inductive Stop where
  | truncated
  | malformed
deriving DecidableEq

/-- What unpacking a file gave, and whether it came to its end without fault. -/
structure Unpacked where
  data : ByteArray
  complete : Bool

/-- The byte at a position, as a number; zero beyond the end. -/
def byteAt (bytes : ByteArray) (position : Nat) : Nat :=
  if inside : position < bytes.size then bytes[position].toNat else 0

/-- The bytes with another one at a position; a position beyond the end changes nothing. -/
def withByte (bytes : ByteArray) (position : Nat) (value : UInt8) : ByteArray :=
  if inside : position < bytes.size then bytes.set position value inside else bytes

def littleEndian (bytes : ByteArray) (start stop : Nat) : Nat :=
  (List.range' start (stop - start)).foldr (fun index rest => byteAt bytes index + 256 * rest) 0

end Dpll.Archive
