import Dpll.Archive.Lzma

/-!
# LZMA in chunks

Data is cut into chunks that hold LZMA data or bytes as they are. A chunk says which part of the
state it starts afresh: the dictionary, the parameters of the contexts, the probabilities.
-/

set_option autoImplicit false

namespace Dpll.Archive.Unlzma

/-- What the next chunk has to bring along: a fresh dictionary, or the parameters of the contexts.
-/
structure Pending where
  dictionary : Bool := true
  shape : Bool := true

def number16 : Unlzma Nat := do
  let high ← byte
  let low ← byte
  return 256 * high.toNat + low.toNat

def shapeOf? (code : Nat) : Option LzmaShape :=
  let shape : LzmaShape :=
    { literalContext := code % 9, literalPosition := code / 9 % 5, position := code / 45 }
  if code < 225 ∧ shape.literalContext + shape.literalPosition ≤ 4 then some shape else none

def freshen : Unlzma Unit :=
  modify fun state => { state with
    probabilities := freshProbabilities state.shape
    history := 0
    distance0 := 0
    distance1 := 0
    distance2 := 0
    distance3 := 0 }

def startCoder : Unlzma Unit := do
  if (← codedByte) ≠ 0 then throw .malformed
  let code ← (List.range 4).foldlM
    (fun (code : UInt32) _ => do return (code <<< 8) ||| (← codedByte).toUInt32) 0
  modify fun state => { state with range := 0xFFFFFFFF, code }

/-- Takes a chunk of LZMA data. It must use up its input and leave nothing in the coder. -/
def codedChunk (control : Nat) : Unlzma Unit := do
  if 0xA0 ≤ control && control < 0xC0 then freshen
  let high := control % 32
  let size := 65536 * high + (← number16) + 1
  let codedSize := (← number16) + 1
  if 0xC0 ≤ control then
    match shapeOf? (← byte).toNat with
    | none => throw .malformed
    | some shape => modify fun state => { state with shape }
    freshen
  modify fun state => { state with
    codedEnd := state.taken + codedSize, chunkEnd := state.output.size + size }
  startCoder
  symbols size
  normalize
  if (← get).code ≠ 0 || (← get).taken ≠ (← get).codedEnd then throw .malformed

def rawBytes : Nat → Unlzma Unit
  | 0 => return ()
  | count + 1 => do
    askRoom
    emit (← byte)
    leaveRoom
    rawBytes count

def rawChunk : Unlzma Unit := do rawBytes ((← number16) + 1)

/-- What the chunk after one with the given first byte has to bring along, unless that byte is out
of place. -/
def pendingAfter? (control : Nat) (pending : Pending) : Option Pending :=
  let fresh := 0xE0 ≤ control || control = 1
  if !fresh && pending.dictionary then none
  else if 0xC0 ≤ control then some { dictionary := false, shape := false }
  else if fresh then some { dictionary := false, shape := true }
  else if 0x80 ≤ control && pending.shape then none
  else if 2 < control && control < 0x80 then none
  else some pending

def freshDictionary : Unlzma Unit :=
  modify fun state => { state with
    dictionaryStart := state.output.size, steps := state.steps.push (.rest state.taken) }

/-- Takes chunks up to the mark of the end. A chunk takes at least one byte, which bounds their
number. -/
def chunks (pending : Pending) : Nat → Unlzma Unit
  | 0 => throw .malformed
  | more + 1 => do
    let control := (← byte).toNat
    if control = 0 then return ()
    match pendingAfter? control pending with
    | none => throw .malformed
    | some pending =>
      if 0xE0 ≤ control || control = 1 then freshDictionary
      if 0x80 ≤ control then codedChunk control else rawChunk
      chunks pending more

def schedule (input : ByteArray) (start dictionarySize : Nat) : Schedule :=
  let state : State := { input, taken := start, dictionarySize }
  let steps := match (chunks {} (input.size + 1)).run state with
    | .ok _ state => state.steps.push (.stop none state.taken true)
    | .error .malformed state => state.steps.push (.stop state.gate state.taken false)
    | .error .truncated state => state.steps.push (.stop state.gate (input.size + 1) false)
  { steps := steps.toList, taken := start }

end Dpll.Archive.Unlzma
