import Dpll.Engine.Fault
import Dpll.Formula.Valuation

/-!
# The trail

The trail records which literals were made true, in which order and at which decision level, beside
the valuation that they amount to. Undoing a level takes literals off the end of the trail. The
newest entries may still have to be propagated; `pending` counts them.
-/

set_option autoImplicit false

namespace Dpll

structure Entry where
  literal : Literal
  level : Nat
deriving DecidableEq

/-- The literals made true so far, the newest first, and the values that they give to the variables.
The newest `pending` ones have not been propagated. -/
structure Trail where
  values : Valuation := #[]
  entries : List Entry := []
  level : Nat := 0
  pending : Nat := 0

namespace Trail

def Covers (trail : Trail) (literal : Literal) : Prop := literal.var < trail.values.size

instance (trail : Trail) (literal : Literal) : Decidable (trail.Covers literal) :=
  inferInstanceAs (Decidable (literal.var < trail.values.size))

/-- Adds undecided variables until there are `count`. No variable is ever removed. -/
def grow (trail : Trail) (count : Nat) : Trail :=
  { trail with
    values := trail.values ++ Array.replicate (count - trail.values.size) Truth.unset }

def assign (trail : Trail) (literal : Literal) : Trail :=
  { trail with
    values := trail.values.setIfInBounds literal.var (Truth.ofSign literal.positive)
    entries := ⟨literal, trail.level⟩ :: trail.entries
    pending := trail.pending + 1 }

inductive Verdict where
  | present
  | rejected
  | free
deriving DecidableEq

def judge (trail : Trail) (literal : Literal) : Except Fault Verdict :=
  match literal.value trail.values with
  | .holds => .ok .present
  | .fails => .ok .rejected
  | .unset => if trail.Covers literal then .ok .free else .error (.noVariable literal.var)

def push (trail : Trail) (literal : Literal) : Except Fault (Verdict × Trail) :=
  match trail.judge literal with
  | .error fault => .error fault
  | .ok .present => .ok (.present, trail)
  | .ok .rejected => .ok (.rejected, trail)
  | .ok .free => .ok (.free, trail.assign literal)

def newLevel (trail : Trail) : Trail := { trail with level := trail.level + 1 }

def unassign (values : Valuation) (entry : Entry) : Valuation :=
  values.setIfInBounds entry.literal.var .unset

/-- The newest entries, up to the first one below the given level. -/
def above (entries : List Entry) (level : Nat) : List Entry := entries.takeWhile (level ≤ ·.level)

/-- Undoes what was done at the given level or above it, which becomes the current one unless the
current one is lower. -/
def popTo (trail : Trail) (level : Nat) : Trail :=
  let undone := above trail.entries level
  { values := undone.foldl unassign trail.values
    entries := trail.entries.drop undone.length
    level := min trail.level level
    pending := trail.pending - undone.length }

def checkUndo (trail : Trail) (level : Nat) : Except Fault Unit :=
  match (above trail.entries level).find? (¬ trail.Covers ·.literal) with
  | some entry => .error (.noVariable entry.literal.var)
  | none => .ok ()

def levelBelow : Nat → Except Fault Nat
  | 0 => .error .noLowerLevel
  | level + 1 => .ok level

/-- Lowers the current level, which may leave no entry above it. -/
def lowerLevel (trail : Trail) (level : Nat) : Except Fault Trail :=
  if trail.entries.head?.all (·.level ≤ level) then
    .ok { trail with level := min trail.level level }
  else .error (.levelInUse level)

def next? (trail : Trail) : Option Literal :=
  match trail.pending with
  | 0 => none
  | newer + 1 => trail.entries[newer]?.map (·.literal)

def advance (trail : Trail) : Trail := { trail with pending := trail.pending - 1 }

def settle (trail : Trail) : Trail := { trail with pending := 0 }

end Trail

end Dpll
