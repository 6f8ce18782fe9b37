import Dpll.Archive.Checksum
import Dpll.Archive.Inflate
import Dpll.Archive.Lzh
import Dpll.Archive.Lzw
import Dpll.Archive.Pack
import Dpll.Archive.Zip

/-!
# Gzip files

A gzip file is a sequence of members, each with a header, deflated data, the check of the unpacked
data and its size. Zeros may follow the last member and nothing else. Members in older formats are
told by their first two bytes and are unpacked as well; some of these formats do not show where they
end, so that nothing can follow them.
-/

set_option autoImplicit false

namespace Dpll.Archive.Gzip

open Expand

def skipText : Nat → Expand Unit
  | 0 => throw .truncated
  | more + 1 => do
    if (← byte) ≠ 0 then skipText more

inductive Format where
  | gzip
  | zip
  | pack
  | lzw
  | lzh

/-- The format that the member at a position is in, by its first bytes. An entry of a zip file must
stand at the beginning of a buffer. -/
def format? (input : ByteArray) (position : Nat) : Option Format :=
  match byteAt input position, byteAt input (position + 1) with
  | 0x1F, 0x8B | 0x1F, 0x9E => some .gzip
  | 0x1F, 0x1E => some .pack
  | 0x1F, 0x9D => some .lzw
  | 0x1F, 0xA0 => some .lzh
  | _, _ =>
    if position % Zip.bufferSize = 0 && Zip.isEntry input position then some .zip else none

def header (start : Nat) : Expand Unit := do
  let method ← byte
  if method ≠ 8 then throw .malformed
  let flags ← byte
  if flags &&& 0x20 ≠ 0 || flags &&& 0xC0 ≠ 0 then throw .malformed
  need 48
  skip 48
  if flags &&& 0x04 ≠ 0 then
    let length ← bits 16
    need (8 * length)
    skip (8 * length)
  if flags &&& 0x08 ≠ 0 then skipText ((← get).input.size + 1)
  if flags &&& 0x10 ≠ 0 then skipText ((← get).input.size + 1)
  if flags &&& 0x02 ≠ 0 then
    let state ← get
    let check := crc32 (state.input.extract start state.position)
    if (← bits 16) ≠ check.toNat % 65536 then throw .malformed

def body : Expand Unit := do
  let before := (← get).output.size
  Inflate.deflated
  let check ← word
  let size ← word
  let output := (← get).output
  if check ≠ (crc32 (output.extract before output.size)).toNat ||
      size ≠ (output.size - before) % 4294967296 then
    throw .malformed

/-- Takes the rest of a member, after its first two bytes, and tells whether another one can follow.
The member starts at the given byte. -/
def member (format : Format) (start : Nat) : Expand Bool := do
  match format with
  | .gzip =>
    header start
    body
    return true
  | .pack =>
    Pack.unpack
    return true
  | .zip =>
    Zip.entry start
    return false
  | .lzw =>
    Lzw.unpack
    return false
  | .lzh =>
    Lzh.unpack
    return false

/-- Takes the members of a file. A file without a member is malformed, and so is one in which
anything but zeros follows the last. -/
def members (first : Bool) : Nat → Expand Unit
  | 0 => throw .malformed
  | more + 1 => do
    let state ← get
    let start := state.position
    if !first && start = state.input.size then return ()
    if !first && (state.input.extract start state.input.size).foldl (· && · = 0) true then return ()
    need 16
    skip 16
    match format? state.input start with
    | none => throw .malformed
    | some format => if ← member format start then members false more

/-- Unpacks a file. When it ends too soon, all that could be unpacked is handed over; when it is
malformed, what the window still holds is lost. -/
def unpack (input : ByteArray) : Unpacked :=
  match (members true (input.size + 1)).run { input } with
  | .ok _ state => { data := state.output, complete := !state.suspect }
  | .error .truncated state => { data := state.flush.output, complete := false }
  | .error .malformed state => { data := state.output, complete := false }

end Dpll.Archive.Gzip
