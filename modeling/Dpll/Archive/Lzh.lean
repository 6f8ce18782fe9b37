import Dpll.Archive.Expander

/-!
# Data packed by prefix codes and copies, in blocks

A block says how many symbols it has and brings the prefix codes for them: one for the symbols,
which are bytes or lengths of copies, and one for the number of bits of a distance. The lengths of
the codes of symbols are themselves written in a prefix code. A block without symbols is the last
one. Bits are taken from the most significant end of each byte, and the input is followed by zeros
without end.

A code is looked up by its first bits in a table. Longer codes go on in a tree, whose branches
stand in two arrays that all codes share: a branch that a code does not set is still there from a
code before.
-/

set_option autoImplicit false

namespace Dpll.Archive.Lzh

open Expand

def dictionarySize : Nat := 8192

def symbolCount : Nat := 510

def lengthCount : Nat := 19

def distanceCount : Nat := 14

/-! ## Trees -/

structure Branches where
  zeros : Array Nat := Array.replicate 4096 0
  ones : Array Nat := Array.replicate 4096 0

/-- A code that is looked up by so many bits at first. An entry of the table is a symbol, or the
number of a branching if that is not below the number of symbols. -/
structure Code where
  count : Nat
  bits : Nat
  table : Array Nat
  lengths : Array Nat

def emptyCode (count bits : Nat) : Code :=
  { count, bits, table := Array.replicate (1 <<< bits) 0, lengths := Array.replicate count 0 }

inductive Slot where
  | table (index : Nat)
  | zero (branching : Nat)
  | one (branching : Nat)

structure Building where
  table : Array Nat
  branches : Branches
  fresh : Nat

namespace Building

def read (building : Building) : Slot → Nat
  | .table index => building.table.getD index 0
  | .zero branching => building.branches.zeros.getD branching 0
  | .one branching => building.branches.ones.getD branching 0

def write (building : Building) (slot : Slot) (value : Nat) : Building :=
  match slot with
  | .table index => { building with table := building.table.setIfInBounds index value }
  | .zero branching =>
    { building with
      branches.zeros := building.branches.zeros.setIfInBounds branching value }
  | .one branching =>
    { building with
      branches.ones := building.branches.ones.setIfInBounds branching value }

def branch (building : Building) (slot : Slot) : Building :=
  if building.read slot ≠ 0 then building
  else
    let fresh := building.fresh
    let building := (building.write (.zero fresh) 0).write (.one fresh) 0
    { building.write slot fresh with fresh := fresh + 1 }

/-- Puts a symbol where the bits of its code lead, from a place on. The current bit is `bit` of the
code. -/
def graft (building : Building) (symbol code bit : Nat) (slot : Slot) : Nat → Building
  | 0 => building.write slot symbol
  | more + 1 =>
    let building := building.branch slot
    let branching := building.read slot
    let slot := if code >>> bit % 2 = 1 then Slot.one branching else .zero branching
    building.graft symbol code (bit - 1) slot more

def fill (building : Building) (symbol start : Nat) : Nat → Building
  | 0 => building
  | more + 1 => (building.write (.table start) symbol).fill symbol (start + 1) more

end Building

/-- Where the codes of each length begin, as numbers of sixteen bits, and where the codes of all
lengths end; every sum is reduced to sixteen bits. -/
def starts (lengths : List Nat) : Array Nat :=
  (List.range 17).foldl
    (fun starts length =>
      let own := if length = 0 then 0 else lengths.count length <<< (16 - length)
      starts.push ((starts.getD length 0 + own) % 65536))
    #[0]

def addSymbols (bits : Nat) (building : Building) (starts : Array Nat) (symbol : Nat) :
    List Nat → Option Building
  | [] => some building
  | 0 :: rest => addSymbols bits building starts (symbol + 1) rest
  | length :: rest =>
    let start := starts.getD length 0
    if length ≤ bits then
      let first := start >>> (16 - bits)
      let width := 1 <<< (bits - length)
      if 1 <<< bits < first + width then none
      else addSymbols bits (building.fill symbol first width)
        (starts.setIfInBounds length (((first + width) <<< (16 - bits)) % 4294967296))
        (symbol + 1) rest
    else
      let slot := Slot.table (start >>> (16 - bits))
      addSymbols bits (building.graft symbol start (15 - bits) slot (length - bits))
        (starts.setIfInBounds length ((start + 1 <<< (16 - length)) % 65536)) (symbol + 1) rest

/-- Makes a code from the lengths of its symbols, unless they leave bits without meaning or ask for
too many codes. What the table holds is kept where no symbol is put; it is emptied from the end of
the codes that fit into it on. -/
def Code.make? (code : Code) (branches : Branches) (lengths : List Nat) :
    Option (Code × Branches) := do
  let starts := starts lengths
  guard (starts.getD 17 0 = 0)
  let used := starts.getD (code.bits + 1) 0 >>> (16 - code.bits)
  let building : Building := { table := code.table, branches, fresh := code.count }
  let building := if used = 0 then building else building.fill 0 used (1 <<< code.bits - used)
  let building ← addSymbols code.bits building starts 0 lengths
  return ({ code with table := building.table, lengths := lengths.toArray }, building.branches)

/-- Follows branchings to a symbol. `ahead` are the next sixteen bits; when they are used up, zeros
follow. -/
def Code.descend (code : Code) (branches : Branches) (ahead value : Nat) : Nat → Nat → Nat
  | _, 0 => 0
  | remaining, more + 1 =>
    if value < code.count then value
    else
      let side := if remaining ≠ 0 && ahead >>> (remaining - 1) % 2 = 1 then branches.ones
        else branches.zeros
      code.descend branches ahead (side.getD value 0) (remaining - 1) more

/-! ## Symbols -/

/-- What is known between two symbols. The code for the lengths of codes and the code for distances
share one table. -/
structure State where
  branches : Branches := {}
  symbols : Code := emptyCode symbolCount 12
  table : Array Nat := Array.replicate 256 0
  lengths : Code := emptyCode lengthCount 8
  distances : Code := emptyCode distanceCount 8

def takeBits (count : Nat) : Expand Nat := do
  let value := (← get).leading count
  skip count
  return value

def symbol (code : Code) (branches : Branches) : Expand Nat := do
  let ahead := (← get).leading 16
  let entry := code.table.getD (ahead >>> (16 - code.bits)) 0
  let found := code.descend branches ahead entry (16 - code.bits) 4096
  skip (code.lengths.getD found 0)
  return found

/-- Takes the length of a code: three bits, and if they are all ones, as many more as there are ones
before the next zero. -/
def codeLength : Expand Nat := do
  let ahead := (← get).leading 16
  let low := ahead >>> 13
  if low < 7 then
    skip 3
    return low
  let ones := ((List.range 13).takeWhile fun index => ahead >>> (12 - index) % 2 = 1).length
  if 9 < ones then throw .malformed
  skip (4 + ones)
  return 7 + ones

/-- Takes lengths of codes until there are so many. After the third there may be some without a
code. `lengths` holds the newest first. -/
def codeLengths (wanted : Nat) (special : Bool) (lengths : List Nat) : Nat → Expand (List Nat)
  | 0 => return lengths.reverse
  | more + 1 => do
    if wanted ≤ lengths.length then return lengths.reverse
    let lengths := (← codeLength) :: lengths
    if special && lengths.length = 3 then
      let skipped ← takeBits 2
      codeLengths wanted special (List.replicate skipped 0 ++ lengths) more
    else codeLengths wanted special lengths more

def fitted (length : Nat) (values : List Nat) : List Nat :=
  values.take length ++ List.replicate (length - values.length) 0

/-- A code of which only one symbol is ever taken, without any bits. -/
def Code.constant (code : Code) (symbol : Nat) : Code :=
  { code with
    table := Array.replicate (1 <<< code.bits) symbol
    lengths := Array.replicate code.count 0 }

def smallCode (code : Code) (branches : Branches) (bits : Nat) (special : Bool) :
    Expand (Code × Branches) := do
  let wanted ← takeBits bits
  if wanted = 0 then return (code.constant (← takeBits bits), branches)
  let lengths ← codeLengths wanted special [] wanted
  match code.make? branches (fitted code.count lengths) with
  | none => throw .malformed
  | some made => return made

/-- Takes the lengths of the codes of symbols until there are so many. Small values stand for
several symbols without a code. `lengths` holds the newest first. -/
def symbolLengths (code : Code) (branches : Branches) (wanted : Nat) (lengths : List Nat) :
    Nat → Expand (List Nat)
  | 0 => return lengths.reverse
  | more + 1 => do
    if wanted ≤ lengths.length then return lengths.reverse
    let value ← symbol code branches
    let added ←
      if value = 0 then pure [0]
      else if value = 1 then pure (List.replicate ((← takeBits 4) + 3) 0)
      else if value = 2 then pure (List.replicate ((← takeBits 9) + 20) 0)
      else pure [value - 2]
    symbolLengths code branches wanted (added ++ lengths) more

def largeCode (code lengthCode : Code) (branches : Branches) : Expand (Code × Branches) := do
  let wanted ← takeBits 9
  if wanted = 0 then return (code.constant (← takeBits 9), branches)
  let lengths ← symbolLengths lengthCode branches wanted [] wanted
  match code.make? branches (fitted symbolCount lengths) with
  | none => throw .malformed
  | some made => return made

def codes (state : State) : Expand State := do
  let (lengths, branches) ←
    smallCode { state.lengths with table := state.table } state.branches 5 true
  let (symbols, branches) ← largeCode state.symbols lengths branches
  let (distances, branches) ←
    smallCode { state.distances with table := lengths.table } branches 4 false
  return { branches, symbols, table := distances.table, lengths, distances }

/-! ## Blocks -/

def emit (value : UInt8) : Expand Unit := modify (·.emitTo dictionarySize value)

def copy (place : Nat) : Nat → Expand Unit
  | 0 => return ()
  | count + 1 => do
    emit (byteAt (← get).window place).toUInt8
    copy ((place + 1) % dictionarySize) count

/-- Takes a distance: the number of its bits, and all of them but the first, which is a one. -/
def distance (state : State) : Expand Nat := do
  let width ← symbol state.distances state.branches
  if width = 0 then return 0
  return 1 <<< (width - 1) + (← takeBits (width - 1))

def symbols (state : State) : Nat → Expand Unit
  | 0 => return ()
  | more + 1 => do
    let next ← symbol state.symbols state.branches
    if next < 256 then emit next.toUInt8
    else
      let back ← distance state
      copy (((← get).cursor + 2 * dictionarySize - back - 1) % dictionarySize) (next - 253)
    symbols state more

/-- Takes blocks up to the last one. A block takes at least sixteen bits, which bounds their
number. -/
def blocks (state : State) : Nat → Expand Unit
  | 0 => return ()
  | more + 1 => do
    let count ← takeBits 16
    if count = 0 then return ()
    let state ← codes state
    symbols state count
    blocks state more

def unpack : Expand Unit := do
  blocks {} ((← get).size + 1)
  handOver

end Dpll.Archive.Lzh
