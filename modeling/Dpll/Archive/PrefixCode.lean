/-!
# Prefix codes

A canonical prefix code is given by the length of the code of each symbol. Codes of one length are
consecutive numbers in the order of their symbols, and shorter codes come before longer ones.

A decoder looks up several bits at a time: first `root` bits, and if the code is longer than that,
as many more as are needed to tell the codes apart that begin with these bits. It can only look up
bits that are there, so `PrefixCode` also says how many bits a look-up takes.
-/

set_option autoImplicit false

namespace Dpll.Archive

/-- A canonical prefix code, by the number of codes of each length and the symbols in the order of
their codes. It is complete if every sequence of bits begins with a code. The first look-up takes
`root` bits. -/
structure PrefixCode where
  counts : Array Nat
  symbols : Array Nat
  root : Nat
  longest : Nat
  complete : Bool

namespace PrefixCode

def count (code : PrefixCode) (length : Nat) : Nat := code.counts.getD length 0

/-- How many codes of the given length are left after all codes up to it have been given out, or
nothing if there are too few. -/
def spare? (lengths : List Nat) : Nat → Option Nat
  | 0 => some 1
  | length + 1 =>
    match spare? lengths length with
    | none => none
    | some left =>
      if lengths.count (length + 1) ≤ 2 * left then
        some (2 * left - lengths.count (length + 1))
      else none

/-- The code with the given lengths of symbols, zero for a symbol without a code. There is none if
the lengths ask for too many codes. At least as many bits as the shortest code has and at most as
many as the longest are looked up first, near the number asked for. -/
def ofLengths? (lengths : List Nat) (lookup : Nat) : Option PrefixCode :=
  let used := lengths.filter (· ≠ 0)
  let counts := (List.range 16).map fun length => if length = 0 then 0 else lengths.count length
  let symbols := (List.range' 1 15).flatMap fun length =>
    lengths.zipIdx.filterMap fun (own, symbol) => if own = length then some symbol else none
  let longest := used.foldl max 0
  let shortest := used.foldl min 15
  if used.isEmpty then
    some { counts := counts.toArray, symbols := #[], root := 1, longest := 0, complete := true }
  else match spare? lengths longest with
    | none => none
    | some left => some
      { counts := counts.toArray
        symbols := symbols.toArray
        root := min (max lookup shortest) longest
        longest := longest
        complete := left = 0 || longest = 1 }

def firstCode (code : PrefixCode) : Nat → Nat
  | 0 => 0
  | length + 1 => 2 * (code.firstCode length + code.count length)

/-- Searches the codes of the lengths from `length` on for the one that the bits begin with, and
gives its symbol and its length. `index` counts the shorter codes, `first` is the first code of
the length and `value` the number that the bits before the current one spell. -/
def findFrom (code : PrefixCode) (length index first value bits : Nat) :
    Nat → Option (Nat × Nat)
  | 0 => none
  | available + 1 =>
    let value := 2 * value + bits % 2
    let count := code.count length
    if value < first + count then
      (code.symbols[index + (value - first)]?).map fun symbol => (symbol, length)
    else code.findFrom (length + 1) (index + count) (2 * (first + count)) value (bits / 2) available

def find? (code : PrefixCode) (bits available : Nat) : Option (Nat × Nat) :=
  code.findFrom 1 0 0 0 bits available

def leading : Nat → Nat → Nat → Nat
  | 0, _, value => value
  | bits + 1, rest, value => leading bits (rest / 2) (2 * value + rest % 2)

/-- The shortest length beyond `known` of a code that begins with the given bits, and how many
codes of that length there are from the first such code on. -/
def shortestBeyond? (code : PrefixCode) (known start : Nat) : Option (Nat × Nat) :=
  (List.range' (known + 1) (code.longest - known)).findSome? fun length =>
    let first := code.firstCode length
    let last := first + code.count length
    let candidate := max first (start <<< (length - known))
    if candidate < min last ((start + 1) <<< (length - known)) then some (length, last - candidate)
    else none

/-- Widens a look-up from `width` bits until it tells all codes apart or has the largest width;
`unclaimed` patterns of the current width belong to no code up to it. -/
def widen (code : PrefixCode) (known largest width unclaimed : Nat) : Nat → Nat
  | 0 => width
  | more + 1 =>
    let width := width + 1
    if largest ≤ width then width
    else
      let count := code.count (known + width)
      if 2 * unclaimed ≤ count then width
      else code.widen known largest width (2 * unclaimed - count) more

def nextWidth (code : PrefixCode) (known start : Nat) : Nat :=
  match code.shortestBeyond? known start with
  | none => 0
  | some (length, remaining) =>
    let largest := min (code.longest - known) code.root
    let width := length - known
    if 1 <<< width ≤ remaining || largest ≤ width then width
    else code.widen known largest width (1 <<< width - remaining) largest

end PrefixCode

end Dpll.Archive
