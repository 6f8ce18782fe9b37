/-!
# Memory

A table is one block of memory, which the system grants or refuses. The largest table of a solver is
the one of the watch lists. There are two of them for each variable, and each takes three words in the
table, a place, a room and a length.
-/

set_option autoImplicit false

namespace Dpll

/-- The most bytes that a table can take, whatever the system grants. -/
def tableLimit : Nat := 9223372036854775807

def listBytes : Nat := 24

/-- Tables hold fewer variables than this. -/
def variableLimit : Nat := tableLimit / (2 * listBytes) + 1

theorem variableLimit_eq : variableLimit = 192153584101141163 := rfl

/-- What the system answers to the request for a block of so many bytes. -/
structure Memory where
  grants : Nat → Bool

namespace Memory

def reserves (memory : Memory) (lists : Nat) : Bool :=
  lists = 0 || (listBytes * lists ≤ tableLimit && memory.grants (listBytes * lists))

/-- Whether there is room for the watch lists of so many variables, whose number has to be a word. -/
def holds (memory : Memory) (count : Nat) : Bool :=
  2 * count < 18446744073709551616 && memory.reserves (2 * count)

/-- The memory that a process can address, which is `2 ^ 47` bytes. -/
def addressable : Memory := { grants := (· < 140737488355328) }

theorem lt_of_holds {memory : Memory} {count : Nat} (room : memory.holds count = true) :
    count < variableLimit := by
  have reserved : count = 0 ∨ listBytes * (2 * count) ≤ tableLimit := by
    have parts := (Bool.and_eq_true_iff.mp room).2
    simp only [reserves, Bool.or_eq_true, Bool.and_eq_true, decide_eq_true_eq] at parts
    omega
  rw [variableLimit_eq]
  simp only [tableLimit, listBytes] at reserved
  omega

end Memory

end Dpll
