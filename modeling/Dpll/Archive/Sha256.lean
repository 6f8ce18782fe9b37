/-!
# SHA-256

The message is padded to whole blocks of 64 bytes, and each block is mixed into a state of eight
words. The digest is the final state, most significant byte first.
-/

set_option autoImplicit false

namespace Dpll.Archive.Sha256

/-- The first 32 bits of the fractional parts of the square roots of the first eight primes. -/
def initialState : Array UInt32 :=
  #[0x6a09e667, 0xbb67ae85, 0x3c6ef372, 0xa54ff53a, 0x510e527f, 0x9b05688c, 0x1f83d9ab,
    0x5be0cd19]

/-- The first 32 bits of the fractional parts of the cube roots of the first sixty-four primes. -/
def roundConstants : Array UInt32 :=
  #[0x428a2f98, 0x71374491, 0xb5c0fbcf, 0xe9b5dba5, 0x3956c25b, 0x59f111f1, 0x923f82a4, 0xab1c5ed5,
    0xd807aa98, 0x12835b01, 0x243185be, 0x550c7dc3, 0x72be5d74, 0x80deb1fe, 0x9bdc06a7, 0xc19bf174,
    0xe49b69c1, 0xefbe4786, 0x0fc19dc6, 0x240ca1cc, 0x2de92c6f, 0x4a7484aa, 0x5cb0a9dc, 0x76f988da,
    0x983e5152, 0xa831c66d, 0xb00327c8, 0xbf597fc7, 0xc6e00bf3, 0xd5a79147, 0x06ca6351, 0x14292967,
    0x27b70a85, 0x2e1b2138, 0x4d2c6dfc, 0x53380d13, 0x650a7354, 0x766a0abb, 0x81c2c92e, 0x92722c85,
    0xa2bfe8a1, 0xa81a664b, 0xc24b8b70, 0xc76c51a3, 0xd192e819, 0xd6990624, 0xf40e3585, 0x106aa070,
    0x19a4c116, 0x1e376c08, 0x2748774c, 0x34b0bcb5, 0x391c0cb3, 0x4ed8aa4a, 0x5b9cca4f, 0x682e6ff3,
    0x748f82ee, 0x78a5636f, 0x84c87814, 0x8cc70208, 0x90befffa, 0xa4506ceb, 0xbef9a3f7, 0xc67178f2]

def rotate (word : UInt32) (bits : UInt32) : UInt32 := (word >>> bits) ||| (word <<< (32 - bits))

/-- The message with a one bit, zeros and its length in bits, in whole blocks. -/
def padded (message : ByteArray) : ByteArray :=
  let zeros := (119 - message.size % 64) % 64
  let length := 8 * message.size
  let start := (List.range zeros).foldl (fun bytes _ => bytes.push 0) (message.push 0x80)
  (List.range 8).foldl (fun bytes index => bytes.push (length >>> (56 - 8 * index)).toUInt8) start

def wordAt (bytes : ByteArray) (start : Nat) : UInt32 :=
  (List.range 4).foldl
    (fun word index => (word <<< 8) ||| (bytes.data.getD (start + index) 0).toUInt32) 0

def schedule (block : ByteArray) : Array UInt32 :=
  let first := (List.range 16).foldl (fun words index => words.push (wordAt block (4 * index))) #[]
  (List.range' 16 48).foldl (fun words index =>
    let early := words.getD (index - 15) 0
    let late := words.getD (index - 2) 0
    let sigma0 := rotate early 7 ^^^ rotate early 18 ^^^ (early >>> 3)
    let sigma1 := rotate late 17 ^^^ rotate late 19 ^^^ (late >>> 10)
    words.push (words.getD (index - 16) 0 + sigma0 + words.getD (index - 7) 0 + sigma1)) first

def round (words state : Array UInt32) (index : Nat) : Array UInt32 :=
  let a := state.getD 0 0
  let b := state.getD 1 0
  let c := state.getD 2 0
  let d := state.getD 3 0
  let e := state.getD 4 0
  let f := state.getD 5 0
  let g := state.getD 6 0
  let h := state.getD 7 0
  let choice := (e &&& f) ^^^ (~~~e &&& g)
  let majority := (a &&& b) ^^^ (a &&& c) ^^^ (b &&& c)
  let sum1 := rotate e 6 ^^^ rotate e 11 ^^^ rotate e 25
  let sum0 := rotate a 2 ^^^ rotate a 13 ^^^ rotate a 22
  let mixed := h + sum1 + choice + roundConstants.getD index 0 + words.getD index 0
  #[mixed + sum0 + majority, a, b, c, d + mixed, e, f, g]

def compress (state : Array UInt32) (block : ByteArray) : Array UInt32 :=
  let words := schedule block
  let mixed := (List.range 64).foldl (round words) state
  Array.zipWith (· + ·) state mixed

def wordBytes (word : UInt32) : List UInt8 :=
  [(word >>> 24).toUInt8, (word >>> 16).toUInt8, (word >>> 8).toUInt8, word.toUInt8]

def digest (message : ByteArray) : ByteArray :=
  let bytes := padded message
  let state := (List.range (bytes.size / 64)).foldl
    (fun state index => compress state (bytes.extract (64 * index) (64 * index + 64)))
    initialState
  ⟨(state.toList.flatMap wordBytes).toArray⟩

end Dpll.Archive.Sha256
