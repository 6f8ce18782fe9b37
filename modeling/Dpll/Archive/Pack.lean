import Dpll.Archive.Expander

/-!
# Data packed by a prefix code of bytes

The packed data begins with the size of the unpacked data and with a prefix code: for each length of
codes the number of bytes that have one, and then the bytes. The codes of one length are consecutive
numbers, and come after the numbers that begin longer codes. The last code of the greatest length
marks the end.
-/

set_option autoImplicit false

namespace Dpll.Archive.Pack

open Expand

def lengthLimit : Nat := 25

def lookup : Nat := 12

/-- A prefix code of bytes. For each length there is the number of bit patterns that begin longer
codes, and the place of its first byte among the bytes in the order of their codes. -/
structure Code where
  longest : Nat
  inner : Array Nat
  places : Array Nat
  bytes : ByteArray

/-- Takes the number of bytes with a code of each length up to the greatest. `room` is the most that
the next number may be; one code of the greatest length is left for the mark of the end. -/
def leafCounts (room : Nat) : Nat → Expand (List Nat)
  | 0 => return []
  | more + 1 => do
    let count ← byte
    if room - (if more = 0 then 1 else 0) < count then throw .malformed
    return count :: (← leafCounts (2 * (room - count) + 1) more)

def addToLast (amount : Nat) : List Nat → List Nat
  | [] => []
  | [last] => [last + amount]
  | first :: rest => first :: addToLast amount rest

def takeBytes (taken : ByteArray) : Nat → Expand ByteArray
  | 0 => return taken
  | count + 1 => do takeBytes (taken.push (← byte).toUInt8) count

/-- For each length the number of patterns that begin longer codes, from the numbers of codes, and
the number of patterns of the first length. -/
def innerCounts : List Nat → List Nat × Nat
  | [] => ([], 0)
  | count :: rest =>
    let (inner, nodes) := innerCounts rest
    (nodes / 2 :: inner, nodes / 2 + count)

def placesFrom (start : Nat) : List Nat → List Nat
  | [] => []
  | count :: rest => start :: placesFrom (start + count) rest

def code : Expand Code := do
  let longest ← byte
  if longest = 0 || lengthLimit < longest then throw .malformed
  let counts ← leafCounts 1 longest
  let total := counts.foldl (· + ·) 0
  if 256 ≤ total then throw .malformed
  let bytes ← takeBytes .empty (total + 1)
  let counts := addToLast 2 counts
  let (inner, nodes) := innerCounts counts
  if nodes / 2 ≠ 1 then throw .malformed
  return {
    longest
    inner := (0 :: inner).toArray
    places := (0 :: placesFrom 0 counts).toArray
    bytes }

def codeLength (code : Code) (length : Nat) : Nat → Expand Nat
  | 0 => return length
  | more + 1 => do
    need length
    if (← get).leading length < code.inner.getD length 0 then codeLength code (length + 1) more
    else return length

/-- Takes codes up to the mark of the end. A code has at least one bit, which bounds their
number. -/
def symbols (code : Code) : Nat → Expand Unit
  | 0 => throw .malformed
  | more + 1 => do
    need (min code.longest lookup)
    let length ← codeLength code 1 code.longest
    let place := code.places.getD length 0 +
      ((← get).leading length - code.inner.getD length 0)
    skip length
    if code.bytes.size ≤ place then return ()
    modify (·.emit (byteAt code.bytes place).toUInt8)
    symbols code more

def unpack : Expand Unit := do
  let size ← (List.range 4).foldlM (fun size _ => return 256 * size + (← byte)) 0
  let before := (← get).output.size
  let code ← code
  symbols code ((← get).size + 1)
  align
  handOver
  if ((← get).output.size - before) % 4294967296 ≠ size then throw .malformed

end Dpll.Archive.Pack
