import Dpll.Archive.Checksum
import Dpll.Archive.Inflate

/-!
# The first entry of a zip file

An entry has a header, a name, a field for other purposes, and data that is deflated or as it is.
The check and the sizes stand in the header or after the data. Only the first entry is unpacked, and
another one after it makes the file suspect.
-/

set_option autoImplicit false

namespace Dpll.Archive.Zip

open Expand

/-- The size of the buffer that the input goes through. A header must fit into one. -/
def bufferSize : Nat := 262144

def isEntry (input : ByteArray) (position : Nat) : Bool :=
  littleEndian input position (position + 4) = 0x04034B50

def headerSize : Nat := 30

/-- What the header of an entry says. The check and the sizes may stand after the data. -/
structure Header where
  deflated : Bool
  trailing : Bool
  check : Nat
  packed : Nat
  unpacked : Nat

/-- Where the buffer ends that holds the byte before a position. -/
def bufferEnd (input : ByteArray) (position : Nat) : Nat :=
  min input.size ((position + bufferSize - 1) / bufferSize * bufferSize)

def header (start : Nat) : Expand Header := do
  let input := (← get).input
  let stop := start + headerSize + littleEndian input (start + 26) (start + 28) +
    littleEndian input (start + 28) (start + 30)
  if bufferEnd input (start + 1) < stop then throw .malformed
  let method := byteAt input (start + 8)
  let flags := byteAt input (start + 6)
  if method ≠ 0 && method ≠ 8 || flags &&& 0x01 ≠ 0 then throw .malformed
  modify fun state => { state with taken := 8 * stop }
  return {
    deflated := method = 8
    trailing := flags &&& 0x08 ≠ 0
    check := littleEndian input (start + 14) (start + 18)
    packed := littleEndian input (start + 18) (start + 22)
    unpacked := littleEndian input (start + 22) (start + 26) }

def data (header : Header) : Expand Unit := do
  if header.deflated then Inflate.deflated
  else
    if header.packed ≠ header.unpacked then throw .malformed
    raw header.unpacked
    handOver

def stated (header : Header) : Expand (Nat × Nat) := do
  if header.trailing then
    let _ ← word
    let check ← word
    let _ ← word
    return (check, ← word)
  else return (header.check, header.unpacked)

def entry (start : Nat) : Expand Unit := do
  let header ← header start
  let before := (← get).output.size
  data header
  let (check, size) ← stated header
  let state ← get
  let output := state.output
  if check ≠ (crc32 (output.extract before output.size)).toNat ||
      size ≠ (output.size - before) % 4294967296 then
    throw .malformed
  let next := state.position
  if next + 4 < bufferEnd state.input next && isEntry state.input next then
    modify fun state => { state with suspect := true }

end Dpll.Archive.Zip
