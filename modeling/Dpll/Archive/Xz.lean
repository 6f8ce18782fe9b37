import Dpll.Archive.Checksum
import Dpll.Archive.Lzma2
import Dpll.Archive.Sha256
import Dpll.Archive.Stage

/-!
# XZ files

An XZ file is a header, blocks of compressed data, an index of the blocks and a footer. Every part
has a check. Only one such sequence is read, and data after it makes the file incomplete.

A file is read in rounds: a round is given a piece of the input and room for a piece of the output,
and goes on until one of them is used up. What a round unpacks is handed over at its end, so it is
lost when the round meets a fault. A round that neither takes nor gives anything means that the
file ends too soon.
-/

set_option autoImplicit false

namespace Dpll.Archive.Xz

def transferSize : Nat := 8192

/-- The state of reading a file. The current round has been given the input up to the limit, and
what was unpacked before it has been handed over. -/
structure Reader where
  input : ByteArray
  taken : Nat := 0
  limit : Nat := min input.size transferSize
  output : ByteArray := .empty
  takenBefore : Nat := 0
  handedOver : Nat := 0

abbrev Reading := EStateM Stop Reader

def require (condition : Bool) : Reading Unit := do
  if !condition then throw .malformed

/-- Begins the next round. It is given new input if there is none left of the old. -/
def nextRound : Reading Unit := do
  let reader ← get
  if reader.taken = reader.takenBefore && reader.output.size = reader.handedOver then
    throw .truncated
  set { reader with
    limit :=
      if reader.taken < reader.limit then reader.limit
      else min reader.input.size (reader.limit + transferSize)
    takenBefore := reader.taken
    handedOver := reader.output.size }

def byte : Reading UInt8 := do
  if (← get).limit ≤ (← get).taken then nextRound
  if (← get).limit ≤ (← get).taken then throw .truncated
  modifyGet fun reader =>
    ((byteAt reader.input reader.taken).toUInt8, { reader with taken := reader.taken + 1 })

def bytes : Nat → ByteArray → Reading ByteArray
  | 0, taken => return taken
  | count + 1, taken => do bytes count (taken.push (← byte))

/-! ## Numbers of variable length -/

/-- The number that bytes spell in sevens of bits, the least significant first; every byte but the
last has its highest bit set. Gives the bytes that follow, too. A number has at most nine bytes,
and its last byte is zero only if it is the only one. -/
def number? (bytes : List UInt8) (limit : Nat) : Option (Nat × List UInt8) :=
  match limit, bytes with
  | limit + 1, byte :: rest =>
    if byte < 128 then some (byte.toNat, rest)
    else match number? rest limit with
      | some (high, rest) =>
        if high = 0 then none else some (byte.toNat - 128 + 128 * high, rest)
      | none => none
  | _, _ => none

def numberBytes : Nat → Reading (List UInt8)
  | 0 => return []
  | limit + 1 => do
    let next ← byte
    if next < 128 then return [next]
    return next :: (← numberBytes limit)

def number : Reading Nat := do
  match number? (← numberBytes 9) 9 with
  | some (value, _) => return value
  | none => throw .malformed

def numberSize (value : Nat) : Nat :=
  1 + ((List.range' 1 8).takeWhile fun count => 1 <<< (7 * count) ≤ value).length

/-! ## Checks -/

def checkSize (kind : Nat) : Nat :=
  #[0, 4, 4, 4, 8, 8, 8, 16, 16, 16, 32, 32, 32, 64, 64, 64].getD kind 0

def bytesOf (count value : Nat) : ByteArray :=
  ⟨((List.range count).map fun index => (value >>> (8 * index)).toUInt8).toArray⟩

def check? (kind : Nat) (data : ByteArray) : Option ByteArray :=
  match kind with
  | 1 => some (bytesOf 4 (crc32 data).toNat)
  | 4 => some (bytesOf 8 (crc64 data).toNat)
  | 10 => some (Sha256.digest data)
  | _ => none

def checked (bytes : ByteArray) (start stop position : Nat) : Bool :=
  (crc32 (bytes.extract start stop)).toNat = littleEndian bytes position (position + 4)

def expect : List UInt8 → Reading Unit
  | [] => return ()
  | value :: rest => do
    require ((← byte) = value)
    expect rest

def padding (size : Nat) : Reading Unit := expect (List.replicate ((4 - size % 4) % 4) 0)

/-! ## Header and footer -/

def fileHeader : Reading Nat := do
  let header ← bytes 12 .empty
  require ((header.extract 0 6).toList = [0xFD, 0x37, 0x7A, 0x58, 0x5A, 0x00])
  require (checked header 6 8 8)
  let kind := byteAt header 7
  require (byteAt header 6 = 0 && kind < 16)
  return kind

def fileFooter (kind indexSize : Nat) : Reading Unit := do
  let footer ← bytes 12 .empty
  require ((footer.extract 10 12).toList = [0x59, 0x5A])
  require (checked footer 4 10 0)
  require (byteAt footer 8 = 0 && byteAt footer 9 = kind)
  require (4 * (littleEndian footer 4 8 + 1) = indexSize)

/-! ## Headers of blocks -/

structure BlockHeader where
  packed : Option Nat
  unpacked : Option Nat
  stages : List Stage
  dictionarySize : Nat

def largestBlock : Nat := 9223372036854775804

def optionalNumber? (present : Bool) (bytes : List UInt8) : Option (Option Nat × List UInt8) :=
  if present then (number? bytes 9).map fun (value, rest) => (some value, rest)
  else some (none, bytes)

/-- The size of the dictionary that a byte stands for: two or three times a power of two, and the
largest is one less than a power of two. It is at least 4 KiB and a multiple of sixteen. -/
def dictionarySize? (code : Nat) : Option Nat :=
  if 40 < code then none
  else
    let size := if code = 40 then 4294967295 else (2 + code % 2) <<< (code / 2 + 11)
    some ((max size 4096 + 15) / 16 * 16)

def machine? : Nat → Option Machine
  | 4 => some .x86
  | 5 => some .powerPc
  | 6 => some .ia64
  | 7 => some .arm
  | 8 => some .armThumb
  | 9 => some .sparc
  | _ => none

def stage? (method : Nat) (parameters : List UInt8) : Option Stage :=
  if method = 3 then
    match parameters with
    | [distance] => some (.sums { distance := distance.toNat + 1 })
    | _ => none
  else do
    let machine ← machine? method
    guard (parameters.length = 0 ∨ parameters.length = 4)
    let address := littleEndian ⟨parameters.toArray⟩ 0 4
    guard (address % machine.alignment = 0)
    return .branches { converter := { machine, address := address.toUInt32 } }

def method? (bytes : List UInt8) : Option (Nat × List UInt8 × List UInt8) := do
  let (method, bytes) ← number? bytes 9
  let (size, bytes) ← number? bytes 9
  guard (size ≤ bytes.length)
  return (method, bytes.take size, bytes.drop size)

/-- The stages and the size of the dictionary at the start of some bytes. The last method of packing
is the one with a dictionary, and `before` others come before it. -/
def methods? (bytes : List UInt8) : Nat → Option (List Stage × Nat × List UInt8)
  | 0 => do
    let (method, parameters, bytes) ← method? bytes
    guard (method = 0x21)
    match parameters with
    | [parameter] => return ([], ← dictionarySize? parameter.toNat, bytes)
    | _ => none
  | before + 1 => do
    let (method, parameters, bytes) ← method? bytes
    let stage ← stage? method parameters
    let (stages, dictionarySize, bytes) ← methods? bytes before
    return (stage :: stages, dictionarySize, bytes)

/-- The header of a block, from its flags and what follows them. Zeros fill the header up.
`overhead` is the size of the header and of the check. -/
def blockHeader? (overhead flags : Nat) (content : List UInt8) : Option BlockHeader := do
  guard (flags &&& 0x3C = 0)
  let (packed, content) ← optionalNumber? (flags &&& 0x40 ≠ 0) content
  guard (packed.all fun size => size ≠ 0 && size + overhead ≤ largestBlock)
  let (unpacked, content) ← optionalNumber? (flags &&& 0x80 ≠ 0) content
  let (stages, dictionarySize, content) ← methods? content (flags % 4)
  guard (content.all (· = 0))
  return { packed, unpacked, stages, dictionarySize }

def headerSize (first : UInt8) : Nat := 4 * (first.toNat + 1)

def blockHeader (kind : Nat) (first : UInt8) : Reading BlockHeader := do
  let size := headerSize first
  let header ← bytes (size - 1) (ByteArray.empty.push first)
  require (checked header 0 (size - 4) (size - 4))
  let content := (header.extract 2 (size - 4)).toList
  match blockHeader? (size + checkSize kind) (byteAt header 1) content with
  | some header => return header
  | none => throw .malformed

/-! ## Blocks -/

/-- What is known of a block that has been unpacked: its size without the padding of its data, and
the size of the unpacked data. -/
structure Extent where
  packed : Nat
  unpacked : Nat
deriving DecidableEq

def within (stated : Option Nat) (size : Nat) : Bool := stated.all (size ≤ ·)

def agrees (stated : Option Nat) (size : Nat) : Bool := stated.all (· = size)

/-- Unpacks the data of a block, in as many rounds as are needed. The sizes must never exceed those
in the header. A round takes or gives at least one byte, which bounds their number. -/
def unpackData (header : BlockHeader) (start before : Nat) (pipeline : Pipeline) :
    Nat → Reading Unit
  | 0 => throw .truncated
  | more + 1 => do
    let reader ← get
    let room := transferSize - (reader.output.size - reader.handedOver)
    let given := pipeline.advance reader.limit room
    let taken := given.rest.schedule.taken
    modify fun reader => { reader with taken, output := reader.output ++ given.bytes }
    require (within header.packed (taken - start))
    require (within header.unpacked ((← get).output.size - before))
    match given.pace with
    | .failed => throw .malformed
    | .ended => return ()
    | .waiting =>
      nextRound
      unpackData header start before given.rest more

def block (kind : Nat) (first : UInt8) : Reading Extent := do
  let header ← blockHeader kind first
  let start := (← get).taken
  let before := (← get).output.size
  let input := (← get).input
  let schedule := Unlzma.schedule input start header.dictionarySize
  let rounds := input.size + schedule.steps.length + 1
  unpackData header start before { stages := header.stages, schedule } rounds
  let packed := (← get).taken - start
  let unpacked := (← get).output.size - before
  require (agrees header.packed packed && agrees header.unpacked unpacked)
  padding packed
  let given ← bytes (checkSize kind) .empty
  let data := (← get).output.extract before (before + unpacked)
  require ((check? kind data).all (·.toList = given.toList))
  return { packed := headerSize first + packed + checkSize kind, unpacked }

def blocks (kind : Nat) : Nat → Reading (List Extent)
  | 0 => throw .malformed
  | more + 1 => do
    let first ← byte
    if first = 0 then return []
    let extent ← block kind first
    return extent :: (← blocks kind more)

/-! ## The index -/

/-- The sums over the entries of an index: the sizes of the blocks with the padding of their data,
those of the unpacked data, and those of the entries themselves. -/
structure Totals where
  packed : Nat := 0
  unpacked : Nat := 0
  entries : Nat := 0

def Totals.add (totals : Totals) (extent : Extent) : Totals :=
  { packed := totals.packed + (extent.packed + 3) / 4 * 4
    unpacked := totals.unpacked + extent.unpacked
    entries := totals.entries + numberSize extent.packed + numberSize extent.unpacked }

def Totals.within (totals bounds : Totals) : Bool :=
  totals.packed ≤ bounds.packed && totals.unpacked ≤ bounds.unpacked &&
    totals.entries ≤ bounds.entries

def entries (bounds totals : Totals) : Nat → Reading (List Extent)
  | 0 => return []
  | more + 1 => do
    let packed ← number
    require (5 ≤ packed && packed ≤ largestBlock)
    let unpacked ← number
    let extent : Extent := { packed, unpacked }
    let totals := totals.add extent
    require (totals.within bounds)
    return extent :: (← entries bounds totals more)

/-- Takes the index, whose first byte has been taken, and gives its size. The entries are compared
with the blocks when the check begins. -/
def index (extents : List Extent) : Reading Nat := do
  let start := (← get).taken - 1
  let count ← number
  require (count = extents.length)
  let listed ← entries (extents.foldl Totals.add {}) {} count
  padding ((← get).taken - start)
  let stop := (← get).taken
  let check := (bytesOf 4 (crc32 ((← get).input.extract start stop)).toNat).toList
  let first ← byte
  require (listed = extents && check.head? = some first)
  expect check.tail
  return stop + 4 - start

def file : Reading Unit := do
  let kind ← fileHeader
  let extents ← blocks kind ((← get).input.size + 1)
  let indexSize ← index extents
  fileFooter kind indexSize

/-- Unpacks a file. When it does not come to its end, what the earlier rounds have unpacked is
handed over. -/
def unpack (input : ByteArray) : Unpacked :=
  match file.run { input } with
  | .ok _ reader => { data := reader.output, complete := reader.taken = input.size }
  | .error _ reader =>
    { data := reader.output.extract 0 reader.handedOver, complete := false }

end Dpll.Archive.Xz
