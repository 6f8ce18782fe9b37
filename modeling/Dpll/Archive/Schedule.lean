import Dpll.Archive.Unpacked

/-!
# Schedules of unpacking

Packed data arrives in pieces, and there is room for so many unpacked bytes at a time. How far
unpacking gets with what has arrived decides which bytes are handed over before a fault is met, so
a schedule tells for each unpacked byte when it is asked for and when it is there. Positions count
the bytes of input that have been taken.
-/

set_option autoImplicit false

namespace Dpll.Archive

/-- A step of unpacking. A byte needs room when `gate` bytes of input have been taken, and is there
when `ready` have. From a rest unpacking goes on only if there is room. The end of the data, or a
fault, may need room for one more byte to get from its gate to its position. -/
inductive Step where
  | byte (value : UInt8) (gate ready : Nat)
  | rest (position : Nat)
  | stop (gate : Option Nat) (position : Nat) (sound : Bool)

inductive Pace where
  | waiting
  | ended
  | failed
deriving DecidableEq

structure Schedule where
  steps : List Step
  taken : Nat

structure Yield (α : Type) where
  rest : α
  bytes : ByteArray
  pace : Pace

namespace Schedule

/-- Goes through steps as far as the input up to `limit` and the room allow. -/
def follow (limit : Nat) : List Step → Nat → ByteArray → Yield Schedule
  | [], _, bytes => ⟨⟨[], limit⟩, bytes, .failed⟩
  | .byte value gate ready :: steps, room, bytes =>
    let here := Step.byte value gate ready :: steps
    if limit < gate then ⟨⟨here, limit⟩, bytes, .waiting⟩
    else if room = 0 then ⟨⟨here, gate⟩, bytes, .waiting⟩
    else if limit < ready then ⟨⟨here, limit⟩, bytes, .waiting⟩
    else follow limit steps (room - 1) (bytes.push value)
  | .rest position :: steps, room, bytes =>
    if limit < position then ⟨⟨.rest position :: steps, limit⟩, bytes, .waiting⟩
    else if room = 0 then ⟨⟨steps, position⟩, bytes, .waiting⟩
    else follow limit steps room bytes
  | .stop gate position sound :: steps, room, bytes =>
    let here := Step.stop gate position sound :: steps
    if limit < gate.getD 0 then ⟨⟨here, limit⟩, bytes, .waiting⟩
    else if gate.isSome && room = 0 then ⟨⟨here, gate.getD 0⟩, bytes, .waiting⟩
    else if limit < position then ⟨⟨here, limit⟩, bytes, .waiting⟩
    else ⟨⟨here, position⟩, bytes, if sound then .ended else .failed⟩

def advance (schedule : Schedule) (limit room : Nat) : Yield Schedule :=
  follow limit schedule.steps room .empty

end Schedule

end Dpll.Archive
