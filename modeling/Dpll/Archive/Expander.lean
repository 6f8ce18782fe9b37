import Dpll.Archive.Unpacked

/-!
# Unpacking through a window

The formats that are recognised by their first two bytes share one state: the input with the number
of bits taken from it, and a window of 32 KiB. Unpacked bytes go through the window, which is handed
over each time it is full and at the end. Copies look back into the window whatever it holds, so it
starts with zeros and keeps its contents from one part of a file to the next.
-/

set_option autoImplicit false

namespace Dpll.Archive

def windowSize : Nat := 32768

/-- The state of unpacking. Of the input so many bits have been taken, and the next byte goes to the
cursor in the window. A file is suspect if something was met that should not be there, though it can
be unpacked. -/
structure Expander where
  input : ByteArray
  taken : Nat := 0
  window : ByteArray := ⟨Array.replicate windowSize 0⟩
  cursor : Nat := 0
  output : ByteArray := .empty
  suspect : Bool := false

/-- Unpacking that may stop early, and keeps the state it has reached then. -/
abbrev Expand := EStateM Stop Expander

namespace Expander

def flush (state : Expander) : Expander :=
  let ready := state.window.extract 0 state.cursor
  { state with output := state.output ++ ready, cursor := 0 }

def emitTo (state : Expander) (size : Nat) (value : UInt8) : Expander :=
  let state := { state with
    window := withByte state.window state.cursor value, cursor := state.cursor + 1 }
  if state.cursor = size then state.flush else state

def emit (state : Expander) (value : UInt8) : Expander := state.emitTo windowSize value

/-- Copies bytes that were added `distance` bytes ago, one after the other, so that a copy may
repeat what it has just written. -/
def copy (state : Expander) (distance : Nat) : Nat → Expander
  | 0 => state
  | count + 1 =>
    let source := (state.cursor + windowSize - distance) % windowSize
    (state.emit (byteAt state.window source).toUInt8).copy distance count

/-- The next bits of the input as a number, the first one least significant; at most sixteen. -/
def peek (state : Expander) (count : Nat) : Nat :=
  let start := state.taken / 8
  let bits := byteAt state.input start + 256 * byteAt state.input (start + 1) +
    65536 * byteAt state.input (start + 2)
  (bits >>> (state.taken % 8)) % (1 <<< count)

/-- The next bits of the input as a number, the first one most significant; at most 32. Bits beyond
the end are zero. -/
def leading (state : Expander) (count : Nat) : Nat :=
  let start := state.taken / 8
  let bits := (List.range 5).foldl
    (fun bits index => 256 * bits + byteAt state.input (start + index)) 0
  (bits >>> (40 - state.taken % 8 - count)) % (1 <<< count)

def position (state : Expander) : Nat := state.taken / 8

def size (state : Expander) : Nat := 8 * state.input.size

end Expander

namespace Expand

def need (count : Nat) : Expand Unit := do
  if (← get).taken + count > (← get).size then throw .truncated

def skip (count : Nat) : Expand Unit :=
  modify fun state => { state with taken := state.taken + count }

def bits (count : Nat) : Expand Nat := do
  need count
  let value := (← get).peek count
  skip count
  return value

def align : Expand Unit :=
  modify fun state => { state with taken := (state.taken + 7) / 8 * 8 }

def byte : Expand Nat := bits 8

def word : Expand Nat := do
  let low ← bits 16
  let high ← bits 16
  return low + 65536 * high

def raw : Nat → Expand Unit
  | 0 => return ()
  | count + 1 => do
    let value ← byte
    modify (·.emit value.toUInt8)
    raw count

def handOver : Expand Unit := modify (·.flush)

end Expand

end Dpll.Archive
