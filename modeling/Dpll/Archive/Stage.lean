import Dpll.Archive.Branch
import Dpll.Archive.Schedule

/-!
# Stages after unpacking

Unpacked bytes may go through stages that undo what made them easier to pack: differences become
sums, and absolute branch targets become relative. The first stage of a list gives the final bytes
and asks the others for what it needs.

A stage of differences passes every byte on at once. A stage of branch targets keeps bytes back that
it cannot convert yet.
-/

set_option autoImplicit false

namespace Dpll.Archive

/-- A stage that adds to each byte the one that it gave `distance` bytes ago. The cursor is the
place of the next byte in the history of the last 256, and moves backwards. -/
structure Summing where
  distance : Nat
  history : ByteArray := ⟨Array.replicate 256 0⟩
  cursor : Nat := 0

def Summing.convert (summing : Summing) (bytes : ByteArray) : ByteArray × Summing :=
  bytes.foldl
    (fun (given, summing) byte =>
      let before := byteAt summing.history ((summing.distance + summing.cursor) % 256)
      let value := byte + before.toUInt8
      (given.push value, { summing with
        history := withByte summing.history (summing.cursor % 256) value
        cursor := (summing.cursor + 255) % 256 }))
    (.empty, summing)

/-- A stage of branch targets. Of the bytes that it keeps back so many are converted. It has ended
if the stages after it have. -/
structure Branching where
  converter : Converter
  kept : ByteArray := .empty
  converted : Nat := 0
  ended : Bool := false

inductive Stage where
  | sums (summing : Summing)
  | branches (branching : Branching)

namespace Branching

def give (branching : Branching) (room : Nat) : ByteArray × Branching :=
  let count := min branching.converted room
  (branching.kept.extract 0 count,
    { branching with
      kept := branching.kept.extract count branching.kept.size
      converted := branching.converted - count })

/-- Converts new bytes together with those kept back. What is converted is given at once, and at the
end all is given. -/
def pass (branching : Branching) (bytes : ByteArray) (ended : Bool) : ByteArray × Branching :=
  let (piece, done, converter) := branching.converter.convert (branching.kept ++ bytes)
  let done := if ended then piece.size else done
  (piece.extract 0 done,
    { branching with converter, kept := piece.extract done piece.size, ended })

/-- Converts new bytes together with those kept back, and keeps all. At the end all counts as
converted. -/
def fill (branching : Branching) (bytes : ByteArray) (ended : Bool) : Branching :=
  let (kept, done, converter) := branching.converter.convert (branching.kept ++ bytes)
  { converter, kept, converted := if ended then kept.size else done, ended }

def capacity (branching : Branching) : Nat := 2 * branching.converter.machine.reach

def pace (branching : Branching) : Pace :=
  if branching.ended && branching.kept.isEmpty then .ended else .waiting

/-- Goes on after all converted bytes have been given. If there is more room than bytes kept back,
new bytes are converted in place; bytes that are then kept back are filled up with more. `supply`
gives new bytes for so much room. -/
def proceed {σ : Type} (supply : σ → Nat → Yield σ) (branching : Branching) (source : σ)
    (room : Nat) : Yield (Branching × σ) :=
  let first : Yield (Branching × σ) :=
    if branching.kept.size < room || branching.kept.isEmpty then
      let inner := supply source (room - branching.kept.size)
      let (bytes, branching) := branching.pass inner.bytes (inner.pace = .ended)
      ⟨(branching, inner.rest), bytes, inner.pace⟩
    else ⟨(branching, source), .empty, .waiting⟩
  let (branching, source) := first.rest
  if first.pace = .failed then first
  else if branching.kept.isEmpty then { first with pace := branching.pace }
  else
    let inner := supply source (branching.capacity - branching.kept.size)
    let branching := branching.fill inner.bytes (inner.pace = .ended)
    let (bytes, branching) := branching.give (room - first.bytes.size)
    ⟨(branching, inner.rest), first.bytes ++ bytes,
      if inner.pace = .failed then .failed else branching.pace⟩

def advance {σ : Type} (supply : σ → Nat → Yield σ) (branching : Branching) (source : σ)
    (room : Nat) : Yield (Branching × σ) :=
  let pending := 0 < branching.converted
  let (bytes, branching) := branching.give room
  if 0 < branching.converted then ⟨(branching, source), bytes, .waiting⟩
  else if pending && branching.ended then ⟨(branching, source), bytes, .ended⟩
  else
    let more := proceed supply branching source (room - bytes.size)
    { more with bytes := bytes ++ more.bytes }

end Branching

structure Pipeline where
  stages : List Stage
  schedule : Schedule

namespace Pipeline

/-- Asks the first stage for as many bytes as the input up to `limit` and the room allow. `depth` is
the number of stages. -/
def ask (limit : Nat) : Nat → Pipeline → Nat → Yield Pipeline
  | depth + 1, ⟨.sums summing :: stages, schedule⟩, room =>
    let inner := ask limit depth ⟨stages, schedule⟩ room
    let (bytes, summing) := summing.convert inner.bytes
    ⟨⟨.sums summing :: inner.rest.stages, inner.rest.schedule⟩, bytes, inner.pace⟩
  | depth + 1, ⟨.branches branching :: stages, schedule⟩, room =>
    let inner := branching.advance (ask limit depth) ⟨stages, schedule⟩ room
    let (branching, rest) := inner.rest
    ⟨⟨.branches branching :: rest.stages, rest.schedule⟩, inner.bytes, inner.pace⟩
  | _, ⟨stages, schedule⟩, room =>
    let inner := schedule.advance limit room
    ⟨⟨stages, inner.rest⟩, inner.bytes, inner.pace⟩

def advance (pipeline : Pipeline) (limit room : Nat) : Yield Pipeline :=
  ask limit pipeline.stages.length pipeline room

end Pipeline

end Dpll.Archive
