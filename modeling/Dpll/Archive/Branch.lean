import Dpll.Archive.Unpacked

/-!
# Branch targets in machine code

Machine code packs better when the targets of branches are written as absolute addresses. These
converters write them relative to the address of the branch again. An instruction can only be
converted when all of its bytes are there, so a converter leaves the last bytes of a piece as they
are and says how many it has converted.
-/

set_option autoImplicit false

namespace Dpll.Archive

inductive Machine where
  | x86
  | powerPc
  | ia64
  | arm
  | armThumb
  | sparc
deriving DecidableEq

/-- The most bytes of a piece that cannot be converted yet. -/
def Machine.reach : Machine → Nat
  | .x86 => 5
  | .ia64 => 16
  | _ => 4

def Machine.alignment : Machine → Nat
  | .x86 => 1
  | .ia64 => 16
  | .armThumb => 2
  | _ => 4

namespace Branch

def at32 (bytes : ByteArray) (place : Nat) : UInt32 := (byteAt bytes place).toUInt32

def put (bytes : ByteArray) (place : Nat) (value : UInt32) : ByteArray :=
  withByte bytes place value.toUInt8

/-! ## Instructions of a fixed size

Each rule is given the address of an instruction and its place, and gives the bytes with the
instruction converted and the distance to the next place. -/

abbrev Rule := UInt32 → ByteArray → Nat → ByteArray × Nat

def powerPc : Rule := fun address bytes place =>
  let b0 := at32 bytes place
  let b3 := at32 bytes (place + 3)
  if b0 >>> 2 = 0x12 ∧ b3 &&& 3 = 1 then
    let source := ((b0 &&& 3) <<< 24) ||| (at32 bytes (place + 1) <<< 16) |||
      (at32 bytes (place + 2) <<< 8) ||| (b3 &&& 0xFC)
    let target := source - address
    let bytes := put bytes place ((0x48 : UInt32) ||| ((target >>> 24) &&& 3))
    let bytes := put bytes (place + 1) (target >>> 16)
    let bytes := put bytes (place + 2) (target >>> 8)
    (put bytes (place + 3) ((b3 &&& 3) ||| (target &&& 0xFC)), 4)
  else (bytes, 4)

def arm : Rule := fun address bytes place =>
  if at32 bytes (place + 3) = 0xEB then
    let source := ((at32 bytes (place + 2) <<< 16) ||| (at32 bytes (place + 1) <<< 8) |||
      at32 bytes place) <<< 2
    let target := (source - (address + 8)) >>> 2
    let bytes := put bytes (place + 2) (target >>> 16)
    let bytes := put bytes (place + 1) (target >>> 8)
    (put bytes place target, 4)
  else (bytes, 4)

def armThumb : Rule := fun address bytes place =>
  let b1 := at32 bytes (place + 1)
  let b3 := at32 bytes (place + 3)
  if b1 &&& 0xF8 = 0xF0 ∧ b3 &&& 0xF8 = 0xF8 then
    let source := (((b1 &&& 7) <<< 19) ||| (at32 bytes place <<< 11) ||| ((b3 &&& 7) <<< 8) |||
      at32 bytes (place + 2)) <<< 1
    let target := (source - (address + 4)) >>> 1
    let bytes := put bytes (place + 1) ((0xF0 : UInt32) ||| ((target >>> 19) &&& 7))
    let bytes := put bytes place (target >>> 11)
    let bytes := put bytes (place + 3) ((0xF8 : UInt32) ||| ((target >>> 8) &&& 7))
    (put bytes (place + 2) target, 4)
  else (bytes, 2)

def sparc : Rule := fun address bytes place =>
  let b0 := at32 bytes place
  let b1 := at32 bytes (place + 1)
  if (b0 = 0x40 ∧ b1 &&& 0xC0 = 0) ∨ (b0 = 0x7F ∧ b1 &&& 0xC0 = 0xC0) then
    let source := ((b0 <<< 24) ||| (b1 <<< 16) ||| (at32 bytes (place + 2) <<< 8) |||
      at32 bytes (place + 3)) <<< 2
    let target := (source - address) >>> 2
    let sign : UInt32 := if (target >>> 22) &&& 1 = 1 then 0x3FC00000 else 0
    let target := sign ||| (target &&& 0x3FFFFF) ||| 0x40000000
    let bytes := put bytes place (target >>> 24)
    let bytes := put bytes (place + 1) (target >>> 16)
    let bytes := put bytes (place + 2) (target >>> 8)
    (put bytes (place + 3) target, 4)
  else (bytes, 4)

/-- Which of the three slots of an instruction bundle hold branches, as bits, for each template. -/
def ia64Templates : Array Nat :=
  #[0, 0, 0, 0, 0, 0, 0, 0, 0, 0, 0, 0, 0, 0, 0, 0, 4, 4, 6, 6, 0, 0, 7, 7, 4, 4, 0, 0, 4, 4, 0, 0]

def ia64Slot (address : UInt32) (bytes : ByteArray) (place slot : Nat) : ByteArray :=
  let first := 5 + 41 * slot
  let place := place + first / 8
  let shift : UInt64 := (first % 8).toUInt64
  let instruction : UInt64 := (littleEndian bytes place (place + 6)).toUInt64
  let body := instruction >>> shift
  if (body >>> 37) &&& 0xF = 5 ∧ (body >>> 9) &&& 7 = 0 then
    let low : UInt64 := (body >>> 13) &&& 0xFFFFF
    let high : UInt64 := (body >>> 36) &&& 1
    let source : UInt32 := (low ||| (high <<< 20)).toUInt32 <<< 4
    let target : UInt64 := ((source - address) >>> 4).toUInt64
    let body := body &&& ~~~((0x8FFFFF : UInt64) <<< 13)
    let body := body ||| ((target &&& 0xFFFFF) <<< 13) ||| ((target &&& 0x100000) <<< 16)
    let before : UInt64 := (1 <<< shift) - 1
    let instruction := (instruction &&& before) ||| (body <<< shift)
    (List.range 6).foldl
      (fun bytes index =>
        withByte bytes (place + index) (instruction >>> (8 * index).toUInt64).toUInt8) bytes
  else bytes

def ia64 : Rule := fun address bytes place =>
  let slots := ia64Templates.getD (byteAt bytes place % 32) 0
  ((List.range 3).foldl
    (fun bytes slot => if slots >>> slot % 2 = 1 then ia64Slot address bytes place slot else bytes)
    bytes, 16)

/-- Applies a rule from a place on as long as a whole instruction is there, and gives the place that
was reached. -/
def walk (rule : Rule) (size : Nat) (address : UInt32) (bytes : ByteArray) (place : Nat) :
    Nat → ByteArray × Nat
  | 0 => (bytes, place)
  | more + 1 =>
    if place + size ≤ bytes.size then
      let (bytes, distance) := rule (address + place.toUInt32) bytes place
      walk rule size address bytes (place + distance) more
    else (bytes, place)

/-! ## Instructions of any size -/

/-- What is remembered of the last bytes that may have begun a branch: a bit for each of them that
began none after all, and the address of the last of these. -/
structure Memory where
  mask : UInt32 := 0
  last : UInt32 := 0xFFFFFFFB

def isFar (value : UInt32) : Bool := value = 0 || value = 0xFF

def mayFollow (mask : UInt32) : Bool :=
  mask >>> 1 < 0x10 &&
    #[true, true, true, false, true, false, false, false].getD ((mask >>> 1) &&& 7).toNat false

/-- Which byte of the target the mask makes doubtful. -/
def doubtful (mask : UInt32) : UInt32 :=
  #[(0 : UInt32), 1, 2, 2, 3, 3, 3, 3].getD (mask >>> 1).toNat 0

/-- The target relative to the address after the branch. If that makes the doubtful byte look like
the highest byte of a target, the low part is inverted first. -/
def relative (mask next source : UInt32) : Nat → UInt32
  | 0 => source - next
  | more + 1 =>
    let target := source - next
    let shift := 8 * doubtful mask
    if mask = 0 || !isFar ((target >>> (24 - shift)) &&& 0xFF) then target
    else relative mask next (target ^^^ ((1 <<< (32 - shift)) - 1)) more

def shifted (mask : UInt32) : Nat → UInt32
  | 0 => mask
  | distance + 1 => shifted ((mask &&& 0x77) <<< 1) distance

/-- Converts the branch at a place, whose address is given, if it is one. Gives the distance to the
next place, too. -/
def x86At (address : UInt32) (bytes : ByteArray) (place : Nat) (memory : Memory) :
    ByteArray × Nat × Memory :=
  let distance := address - memory.last
  let mask := if 5 < distance then 0 else shifted memory.mask distance.toNat
  let top := at32 bytes (place + 4)
  if isFar top && mayFollow mask then
    let source := (top <<< 24) ||| (at32 bytes (place + 3) <<< 16) |||
      (at32 bytes (place + 2) <<< 8) ||| at32 bytes (place + 1)
    let target := relative mask (address + 5) source 4
    let bytes := put bytes (place + 4) (if (target >>> 24) &&& 1 = 1 then 0xFF else 0)
    let bytes := put bytes (place + 3) (target >>> 16)
    let bytes := put bytes (place + 2) (target >>> 8)
    (put bytes (place + 1) target, 5, { mask := 0, last := address })
  else
    let mask := mask ||| 1
    (bytes, 1, { mask := if isFar top then mask ||| 0x10 else mask, last := address })

def x86From (address : UInt32) (bytes : ByteArray) (place : Nat) (memory : Memory) :
    Nat → ByteArray × Nat × Memory
  | 0 => (bytes, place, memory)
  | more + 1 =>
    if place + 5 ≤ bytes.size then
      let first := at32 bytes place
      if first = 0xE8 ∨ first = 0xE9 then
        let (bytes, distance, memory) := x86At (address + place.toUInt32) bytes place memory
        x86From address bytes (place + distance) memory more
      else x86From address bytes (place + 1) memory more
    else (bytes, place, memory)

def x86 (address : UInt32) (bytes : ByteArray) (memory : Memory) : ByteArray × Nat × Memory :=
  if bytes.size < 5 then (bytes, 0, memory)
  else
    let memory :=
      if 5 < address - memory.last then { memory with last := address - 5 } else memory
    x86From address bytes 0 memory bytes.size

end Branch

structure Converter where
  machine : Machine
  address : UInt32 := 0
  memory : Branch.Memory := {}

def Converter.convert (converter : Converter) (bytes : ByteArray) :
    ByteArray × Nat × Converter :=
  let address := converter.address
  let reach := converter.machine.reach
  let fixed (rule : Branch.Rule) : ByteArray × Nat × Branch.Memory :=
    let (bytes, done) := Branch.walk rule reach address bytes 0 bytes.size
    (bytes, done, converter.memory)
  let (bytes, done, memory) := match converter.machine with
    | .x86 => Branch.x86 address bytes converter.memory
    | .powerPc => fixed Branch.powerPc
    | .ia64 => fixed Branch.ia64
    | .arm => fixed Branch.arm
    | .armThumb => fixed Branch.armThumb
    | .sparc => fixed Branch.sparc
  (bytes, done, { converter with address := address + done.toUInt32, memory })

end Dpll.Archive
