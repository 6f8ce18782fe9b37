import Dpll.Archive.Expander
import Dpll.Archive.PrefixCode

/-!
# Deflated data

Deflated data is a sequence of blocks of literal bytes and of copies of earlier bytes. Bits are
taken from the least significant end of each byte.
-/

set_option autoImplicit false

namespace Dpll.Archive.Inflate

open Expand

/-- Takes a symbol: looks up `width` bits after `known` others, and more if they begin a longer
code. -/
def symbolFrom (code : PrefixCode) (known width : Nat) : Nat → Expand Nat
  | 0 => throw .malformed
  | lookups + 1 => do
    need (known + width)
    let ahead := (← get).peek (known + width)
    match code.find? ahead (known + width) with
    | some (symbol, length) =>
      skip length
      return symbol
    | none =>
      if code.longest ≤ known + width then throw .malformed
      else
        let known := known + code.root
        symbolFrom code known (code.nextWidth known (PrefixCode.leading known ahead 0)) lookups

def symbol (code : PrefixCode) : Expand Nat := symbolFrom code 0 code.root 16

/-! ## Copies -/

/-- The shortest copy for each length symbol from 257 on, and how many bits are added to it. -/
def lengthBase : Array (Nat × Nat) :=
  #[(3, 0), (4, 0), (5, 0), (6, 0), (7, 0), (8, 0), (9, 0), (10, 0), (11, 1), (13, 1), (15, 1),
    (17, 1), (19, 2), (23, 2), (27, 2), (31, 2), (35, 3), (43, 3), (51, 3), (59, 3), (67, 4),
    (83, 4), (99, 4), (115, 4), (131, 5), (163, 5), (195, 5), (227, 5), (258, 0)]

def distanceBase : Array (Nat × Nat) :=
  #[(1, 0), (2, 0), (3, 0), (4, 0), (5, 1), (7, 1), (9, 2), (13, 2), (17, 3), (25, 3), (33, 4),
    (49, 4), (65, 5), (97, 5), (129, 6), (193, 6), (257, 7), (385, 7), (513, 8), (769, 8),
    (1025, 9), (1537, 9), (2049, 10), (3073, 10), (4097, 11), (6145, 11), (8193, 12), (12289, 12),
    (16385, 13), (24577, 13)]

def extended (bases : Array (Nat × Nat)) (symbol : Nat) : Expand Nat := do
  match bases[symbol]? with
  | none => throw .malformed
  | some (base, extra) => return base + (← bits extra)

/-- Unpacks symbols until the end of the block. A symbol takes at least one bit, which bounds their
number. -/
def symbols (literals distances : PrefixCode) : Nat → Expand Unit
  | 0 => throw .malformed
  | more + 1 => do
    let next ← symbol literals
    if next < 256 then
      modify (·.emit next.toUInt8)
      symbols literals distances more
    else if next = 256 then return ()
    else
      let length ← extended lengthBase (next - 257)
      let distance ← extended distanceBase (← symbol distances)
      modify (·.copy distance length)
      symbols literals distances more

def coded (literals distances : PrefixCode) : Expand Unit := do
  symbols literals distances ((← get).size + 1)

/-! ## Blocks -/

def stored : Expand Unit := do
  align
  let length ← bits 16
  let complement ← bits 16
  if length + complement ≠ 65535 then throw .malformed
  raw length

def fixedLiterals : List Nat :=
  List.replicate 144 8 ++ List.replicate 112 9 ++ List.replicate 24 7 ++ List.replicate 8 8

def fixed : Expand Unit := do
  match PrefixCode.ofLengths? fixedLiterals 7, PrefixCode.ofLengths? (List.replicate 30 5) 5 with
  | some literals, some distances => coded literals distances
  | _, _ => throw .malformed

def lengthOrder : List Nat := [16, 17, 18, 0, 8, 7, 9, 6, 10, 5, 11, 4, 12, 3, 13, 2, 14, 1, 15]

/-- Adds the same length several times, unless that makes more lengths than wanted. `lengths` holds
the newest first. -/
def repeated (wanted : Nat) (lengths : List Nat) (length count : Nat) : Expand (List Nat) := do
  if wanted < lengths.length + count then throw .malformed
  return List.replicate count length ++ lengths

def lengthEntry (code : PrefixCode) (wanted : Nat) (lengths : List Nat) : Expand (List Nat) := do
  let next ← symbol code
  if next < 16 then return next :: lengths
  else if next = 16 then repeated wanted lengths (lengths.headD 0) (3 + (← bits 2))
  else if next = 17 then repeated wanted lengths 0 (3 + (← bits 3))
  else repeated wanted lengths 0 (11 + (← bits 7))

def lengthEntries (code : PrefixCode) (wanted : Nat) (lengths : List Nat) : Nat → Expand (List Nat)
  | 0 => return lengths.reverse
  | more + 1 => do
    if wanted ≤ lengths.length then return lengths.reverse
    lengthEntries code wanted (← lengthEntry code wanted lengths) more

def completeCode (lengths : List Nat) (lookup : Nat) : Expand PrefixCode :=
  match PrefixCode.ofLengths? lengths lookup with
  | none => throw .malformed
  | some code => if code.complete then return code else throw .malformed

def dynamic : Expand Unit := do
  let literalCount := 257 + (← bits 5)
  let distanceCount := 1 + (← bits 5)
  let entryCount := 4 + (← bits 4)
  if 286 < literalCount || 30 < distanceCount then throw .malformed
  let given ← (lengthOrder.take entryCount).mapM fun symbol => do return (symbol, ← bits 3)
  let lengthLengths := (List.range 19).map fun symbol => (given.lookup symbol).getD 0
  let code ← completeCode lengthLengths 7
  let wanted := literalCount + distanceCount
  let lengths ← lengthEntries code wanted [] wanted
  let literals ← completeCode (lengths.take literalCount) 9
  let distances ← completeCode (lengths.drop literalCount) 6
  coded literals distances

/-- Unpacks blocks up to the one marked as the last. A block takes at least three bits, which bounds
their number. -/
def blocks : Nat → Expand Unit
  | 0 => throw .malformed
  | more + 1 => do
    let last ← bits 1
    match ← bits 2 with
    | 0 => stored
    | 1 => fixed
    | 2 => dynamic
    | _ => throw .malformed
    if last = 0 then blocks more

def deflated : Expand Unit := do
  modify fun state => { state with cursor := 0 }
  blocks ((← get).size + 1)
  align
  handOver

end Dpll.Archive.Inflate
