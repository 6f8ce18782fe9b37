import Dpll.Archive.Gzip
import Dpll.Archive.Xz
import Dpll.Dimacs.Reader
import Dpll.Files.Hyphen
import Dpll.Files.Tree

/-!
# Opening files

A file is opened by its name, and unpacked as its name says. A directory can be opened and not be
read.
-/

set_option autoImplicit false

namespace Dpll.Files

def unreadable : Dimacs.Source := { bytes := .empty, broken := true }

def sourceOf (unpacked : Archive.Unpacked) : Dimacs.Source :=
  { bytes := unpacked.data, broken := !unpacked.complete }

/-- A name of this many bytes or more is too long for the program that unpacks gzip files. -/
def gzipNameLimit : Nat := 1023

def openGzip (name : String) (found : Found) : Dimacs.Source :=
  match answerName? name, found with
  | some (.text line), _ => { bytes := (line ++ "\n").toUTF8 }
  | some .failure, _ => unreadable
  | none, .file contents =>
    if gzipNameLimit ≤ name.utf8ByteSize then unreadable
    else sourceOf (Archive.Gzip.unpack contents)
  | none, _ => unreadable

def openFound (name : String) (found : Found) : Except Dimacs.OpenError Dimacs.Source :=
  match packing name, found with
  | .gzip, .absent _ => .error .nothingToUnpack
  | .gzip, found => .ok (openGzip name found)
  | _, .absent cause => .error cause
  | _, .directory => .ok unreadable
  | .plain, .file contents => .ok { bytes := contents }
  | .xz, .file contents => .ok (sourceOf (Archive.Xz.unpack contents))

def readFound {σ : Type} (memory : Memory) (receiver : Dimacs.Receiver σ) (name : String)
    (found : Found) (state : σ) : Dimacs.Outcome σ :=
  match openFound name found with
  | .error cause => (some (.unopened cause), { receiver := state })
  | .ok source => Dimacs.read memory receiver source state

end Dpll.Files
