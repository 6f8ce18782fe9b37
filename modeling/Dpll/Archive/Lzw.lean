import Dpll.Archive.Expander

/-!
# Data packed by a table of strings

The packed data is a sequence of codes, each of which stands for a string of bytes. A code below 256
stands for one byte; with every code that is taken, the string before it and the first byte of its
own string make a new entry of the table. The width of the codes grows with the table, and codes
come in groups of eight of one width: what is left of a group is passed over when the width changes.

Whatever was unpacked is handed over, also before a fault.
-/

set_option autoImplicit false

namespace Dpll.Archive.Lzw

open Expand

def firstWidth : Nat := 9

def clearCode : Nat := 256

/-- The state between two codes. Each code has the last byte of its string, and from 256 on the code
of its string without that byte. After the `largest` code the width grows, and the table is full at
`fullWidth`. The current groups began at the bit `groups`. -/
structure State where
  stems : Array Nat
  lasts : ByteArray
  clears : Bool
  fullWidth : Nat
  width : Nat := firstWidth
  largest : Nat := 511
  next : Nat
  previous : Option Nat := none
  first : UInt8 := 0
  groups : Nat

def State.spell (state : State) (code : Nat) (rest : List UInt8) : Nat → List UInt8
  | 0 => rest
  | length + 1 =>
    let rest := (byteAt state.lasts code).toUInt8 :: rest
    if code < 256 then rest else state.spell (state.stems.getD code 0) rest length

def longestString : Nat := 65536

/-- The string of a code that was taken. The entry of the next code is not there yet: its string is
the one before with its first byte added. -/
def State.stringOf (state : State) (code previous : Nat) : List UInt8 :=
  if code = state.next then state.spell previous [state.first] longestString
  else state.spell code [] longestString

def State.enter (state : State) (code previous : Nat) (first : UInt8) : State :=
  let state := { state with previous := some code, first }
  if state.next < 1 <<< state.fullWidth then
    { state with
      stems := state.stems.setIfInBounds state.next previous
      lasts := withByte state.lasts state.next first
      next := state.next + 1 }
  else state

def endGroup (state : State) : Expand State := do
  let size := 8 * state.width
  let used := (← get).taken - state.groups
  let groups := state.groups + (used + size - 1) / size * size
  modify fun expander => { expander with taken := groups }
  return { state with groups }

def widen (state : State) : Expand State := do
  let state ← endGroup state
  let width := state.width + 1
  let largest := if width = state.fullWidth then 1 <<< width else (1 <<< width) - 1
  return { state with width, largest }

def clear (state : State) : Expand State := do
  let state ← endGroup state
  return { state with width := firstWidth, largest := 511, next := clearCode }

def hand (bytes : List UInt8) : Expand Unit :=
  modify fun expander => { expander with output := bytes.foldl ByteArray.push expander.output }

def step (state : State) (code : Nat) : Expand State := do
  match state.previous with
  | none =>
    if 256 ≤ code then throw .malformed
    hand [code.toUInt8]
    return { state with previous := some code, first := code.toUInt8 }
  | some previous =>
    if code = clearCode && state.clears then clear state
    else if state.next < code then throw .malformed
    else
      let string := state.stringOf code previous
      hand string
      return state.enter code previous (string.headD 0)

/-- Takes codes as long as there are enough bits. A code has at least nine bits, which bounds their
number. -/
def codes (state : State) : Nat → Expand Unit
  | 0 => return ()
  | more + 1 => do
    let state ← if state.largest < state.next then widen state else pure state
    let expander ← get
    if expander.size < expander.taken + state.width then return ()
    skip state.width
    codes (← step state (expander.peek state.width)) more

/-- The table at the start. The strings of codes that have no entry yet end with the bytes that the
window holds. -/
def freshLasts (window : ByteArray) : ByteArray :=
  ⟨((List.range 256).map (·.toUInt8)).toArray⟩ ++ window.extract 256 window.size ++
    ⟨Array.replicate (65536 - window.size) 0⟩

/-- Takes all codes, after a byte that says how wide they become and whether one is kept for
starting afresh. Other bits in it make the file suspect. -/
def unpack : Expand Unit := do
  let flags ← byte
  if flags &&& 0x60 ≠ 0 then modify fun expander => { expander with suspect := true }
  let fullWidth := flags &&& 0x1F
  if 16 < fullWidth then throw .malformed
  let clears := flags &&& 0x80 ≠ 0
  let expander ← get
  let state : State :=
    { stems := Array.replicate 65536 0
      lasts := freshLasts expander.window
      clears
      fullWidth
      next := if clears then 257 else 256
      groups := expander.taken }
  codes state expander.size

end Dpll.Archive.Lzw
