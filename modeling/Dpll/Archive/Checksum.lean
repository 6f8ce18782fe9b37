/-!
# Cyclic redundancy checks

The checks divide the message, taken as a polynomial over two elements, by a fixed polynomial. Bits
are taken from the least significant end, so the polynomials are written in reverse.
-/

set_option autoImplicit false

namespace Dpll.Archive

def eightTimes {α : Type} (step : α → α) (start : α) : α :=
  (step ∘ step ∘ step ∘ step ∘ step ∘ step ∘ step ∘ step) start

def crc32Bit (crc : UInt32) : UInt32 :=
  if crc &&& 1 = 1 then (crc >>> 1) ^^^ 0xEDB88320 else crc >>> 1

def crc32 (message : ByteArray) : UInt32 :=
  message.foldl (fun crc byte => eightTimes crc32Bit (crc ^^^ byte.toUInt32)) 0xFFFFFFFF
    ^^^ 0xFFFFFFFF

def crc64Bit (crc : UInt64) : UInt64 :=
  if crc &&& 1 = 1 then (crc >>> 1) ^^^ 0xC96C5795D7870F42 else crc >>> 1

def crc64 (message : ByteArray) : UInt64 :=
  message.foldl (fun crc byte => eightTimes crc64Bit (crc ^^^ byte.toUInt64)) 0xFFFFFFFFFFFFFFFF
    ^^^ 0xFFFFFFFFFFFFFFFF

end Dpll.Archive
