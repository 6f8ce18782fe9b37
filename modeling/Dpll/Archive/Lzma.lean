import Dpll.Archive.Schedule

/-!
# LZMA data

LZMA data is a sequence of literal bytes and of copies of earlier bytes. Every choice is a bit,
coded with a probability that adapts to the bits coded before in the same context. All
probabilities stand in one array, in a section for each kind of choice.

A symbol is only begun when there is room for a byte, but the byte of input that the coder may need
between two symbols is taken before. A copy that finds no more room is continued later.
-/

set_option autoImplicit false

namespace Dpll.Archive

/-- The parameters of the contexts: how many bits of the byte before and of the position select the
context of a literal, and how many bits of the position those of the other choices. -/
structure LzmaShape where
  literalContext : Nat := 0
  literalPosition : Nat := 0
  position : Nat := 0

/-- The state of unpacking LZMA data. The coder has narrowed down an interval of width `range`, and
`code` is the coded number, counted from its start. `history` tells from zero to eleven which kinds
of symbols came last, below seven after a literal. The last four distances are given the newest
first, each less one. If what is being taken needs room for a byte, `gate` is where the room was
asked for. -/
structure Unlzma.State where
  input : ByteArray
  taken : Nat := 0
  codedEnd : Nat := 0
  output : ByteArray := .empty
  steps : Array Step := #[]
  gate : Option Nat := none
  chunkEnd : Nat := 0
  dictionaryStart : Nat := 0
  dictionarySize : Nat := 0
  shape : LzmaShape := {}
  range : UInt32 := 0
  code : UInt32 := 0
  probabilities : Array UInt32 := #[]
  history : Nat := 0
  distance0 : Nat := 0
  distance1 : Nat := 0
  distance2 : Nat := 0
  distance3 : Nat := 0

abbrev Unlzma := EStateM Stop Unlzma.State

namespace Unlzma

/-! ## Input and output -/

def byte : Unlzma UInt8 := do
  let position := (← get).taken
  if (← get).input.size ≤ position then throw .truncated
  modify fun state => { state with taken := position + 1 }
  return (byteAt (← get).input position).toUInt8

def codedByte : Unlzma UInt8 := do
  let value ← byte
  if (← get).codedEnd < (← get).taken then throw .malformed
  return value

def askRoom : Unlzma Unit := modify fun state => { state with gate := some state.taken }

def leaveRoom : Unlzma Unit := modify fun state => { state with gate := none }

/-- Adds one byte to the output. What follows needs room for another byte. -/
def emit (value : UInt8) : Unlzma Unit :=
  modify fun state => { state with
    output := state.output.push value
    steps := state.steps.push (.byte value (state.gate.getD state.taken) state.taken)
    gate := some state.taken }

def chunkDone : Unlzma Bool := return (← get).chunkEnd ≤ (← get).output.size

/-- The byte that was added `distance + 1` bytes ago. -/
def back (state : State) (distance : Nat) : Nat :=
  if distance < state.output.size then byteAt state.output (state.output.size - 1 - distance) else 0

/-- Copies bytes that were added `distance + 1` bytes ago, one after the other, so that a copy may
repeat what it has just written. It must not reach past the end of the chunk, and when it does, no
room is needed to tell. -/
def copyBytes (distance : Nat) : Nat → Unlzma Unit
  | 0 => return ()
  | count + 1 => do
    if ← chunkDone then
      leaveRoom
      throw .malformed
    emit (back (← get) distance).toUInt8
    copyBytes distance count

def copy (distance count : Nat) : Unlzma Unit := do
  let known := (← get).output.size - (← get).dictionaryStart
  if min known (← get).dictionarySize ≤ distance then throw .malformed
  copyBytes distance count

/-! ## Bits -/

def normalize : Unlzma Unit := do
  if (← get).range < 0x1000000 then
    let next ← codedByte
    modify fun state =>
      { state with range := state.range <<< 8, code := (state.code <<< 8) ||| next.toUInt32 }

/-- Divides the interval in proportion to the probability of a zero, in parts of 2048, and gives
the bit whose part holds the coded number. The probability moves towards that bit. -/
def State.split (state : State) (context : Nat) : Nat × State :=
  let chance : UInt32 := state.probabilities.getD context 1024
  let bound : UInt32 := (state.range >>> 11) * chance
  if state.code < bound then
    let chance := chance + ((2048 - chance) >>> 5)
    (0, { state with
      range := bound
      probabilities := state.probabilities.setIfInBounds context chance })
  else
    let chance := chance - (chance >>> 5)
    (1, { state with
      range := state.range - bound
      code := state.code - bound
      probabilities := state.probabilities.setIfInBounds context chance })

def State.halve (state : State) : Nat × State :=
  let half : UInt32 := state.range >>> 1
  let rest : UInt32 := state.code - half
  if rest >>> 31 = 1 then (0, { state with range := half })
  else (1, { state with range := half, code := rest })

def bit (context : Nat) : Unlzma Nat := do
  normalize
  modifyGet (·.split context)

def directBits (value : Nat) : Nat → Unlzma Nat
  | 0 => return value
  | count + 1 => do
    normalize
    let next ← modifyGet State.halve
    directBits (2 * value + next) count

/-- Takes the bits of a number, the first one most significant. Each has a context for the bits
before it; `node` is one followed by these bits. -/
def treeNode (base node : Nat) : Nat → Unlzma Nat
  | 0 => return node
  | count + 1 => do treeNode base (2 * node + (← bit (base + node))) count

def tree (base count : Nat) : Unlzma Nat := return (← treeNode base 1 count) - (1 <<< count)

/-- Takes the bits of a number, the first one least significant, each in a context for the bits
before it. -/
def reverseTree (base node weight value : Nat) : Nat → Unlzma Nat
  | 0 => return value
  | count + 1 => do
    let next ← bit (base + node)
    reverseTree base (2 * node + next) (2 * weight) (value + weight * next) count

/-! ## The sections of the probabilities -/

def isCopy : Nat := 0
def isRepeat : Nat := 192
def isNotNewest : Nat := 204
def isNotSecond : Nat := 216
def isNotThird : Nat := 228
def isLong : Nat := 240
def distanceSlots : Nat := 432
def distanceLow : Nat := 688
def distanceAlign : Nat := 803
def copyLengths : Nat := 819
def repeatLengths : Nat := 1333
def literals : Nat := 1847

def freshProbabilities (shape : LzmaShape) : Array UInt32 :=
  Array.replicate (literals + 768 <<< (shape.literalContext + shape.literalPosition)) 1024

/-! ## Symbols -/

/-- Takes the rest of a literal while its bits agree with those of the byte at the newest
distance. -/
def literalBeside (base expected node : Nat) : Nat → Unlzma Nat
  | 0 => return node
  | count + 1 => do
    let hint := expected >>> count % 2
    let next ← bit (base + 256 + 256 * hint + node)
    let node := 2 * node + next
    if next = hint then literalBeside base expected node count
    else treeNode base node count

def literal : Unlzma Unit := do
  let state ← get
  let shape := state.shape
  let position := state.output.size - state.dictionaryStart
  let before := if position = 0 then 0 else back state 0
  let context := ((position % (1 <<< shape.literalPosition)) <<< shape.literalContext) +
    (before >>> (8 - shape.literalContext))
  let base := literals + 768 * context
  let history := state.history
  let expected := back state state.distance0
  let value ←
    if history < 7 then treeNode base 1 8 else literalBeside base expected 1 8
  emit value.toUInt8
  let history := if history < 4 then 0 else if history < 10 then history - 3 else history - 6
  modify fun state => { state with history }

def length (base positionContext : Nat) : Unlzma Nat := do
  if (← bit base) = 0 then return 2 + (← tree (base + 2 + 8 * positionContext) 3)
  else if (← bit (base + 1)) = 0 then
    return 10 + (← tree (base + 130 + 8 * positionContext) 3)
  else return 18 + (← tree (base + 258) 8)

def distance (length : Nat) : Unlzma Nat := do
  let slot ← tree (distanceSlots + 64 * min (length - 2) 3) 6
  if slot < 4 then return slot
  let extra := slot / 2 - 1
  let base := (2 + slot % 2) <<< extra
  if slot < 14 then reverseTree (distanceLow + base - slot - 1) 1 1 base extra
  else
    let high ← directBits (2 + slot % 2) (extra - 4)
    reverseTree distanceAlign 1 1 (16 * high) 4

def earlierDistance (history : Nat) : Unlzma Unit := do
  if (← bit (isNotSecond + history)) = 0 then
    modify fun state => { state with distance0 := state.distance1, distance1 := state.distance0 }
  else if (← bit (isNotThird + history)) = 0 then
    modify fun state => { state with
      distance0 := state.distance2, distance1 := state.distance0, distance2 := state.distance1 }
  else
    modify fun state => { state with
      distance0 := state.distance3
      distance1 := state.distance0
      distance2 := state.distance1
      distance3 := state.distance2 }

def remember (afterLiteral afterCopy : Nat) : Unlzma Unit :=
  modify fun state =>
    { state with history := if state.history < 7 then afterLiteral else afterCopy }

def newCopy (positionContext : Nat) : Unlzma Unit := do
  remember 7 10
  let count ← length copyLengths positionContext
  let chosen ← distance count
  modify fun state => { state with
    distance0 := chosen
    distance1 := state.distance0
    distance2 := state.distance1
    distance3 := state.distance2 }
  copy chosen count

def longRepeat (positionContext : Nat) : Unlzma Unit := do
  remember 8 11
  let count ← length repeatLengths positionContext
  copy (← get).distance0 count

def repeatedCopy (history positionContext : Nat) : Unlzma Unit := do
  if (← get).output.size ≤ (← get).dictionaryStart then throw .malformed
  if (← bit (isNotNewest + history)) = 0 then
    if (← bit (isLong + 16 * history + positionContext)) = 0 then
      remember 9 11
      copy (← get).distance0 1
    else longRepeat positionContext
  else
    earlierDistance history
    longRepeat positionContext

def symbol : Unlzma Unit := do
  normalize
  askRoom
  let history := (← get).history
  let position := (← get).output.size - (← get).dictionaryStart
  let positionContext := position % (1 <<< (← get).shape.position)
  if (← bit (isCopy + 16 * history + positionContext)) = 0 then literal
  else if (← bit (isRepeat + history)) = 0 then newCopy positionContext
  else repeatedCopy history positionContext
  leaveRoom

/-- Takes symbols up to the end of the chunk. Each adds at least one byte, which bounds their
number. -/
def symbols : Nat → Unlzma Unit
  | 0 => return ()
  | more + 1 => do
    if ← chunkDone then return ()
    symbol
    symbols more

end Unlzma

end Dpll.Archive
