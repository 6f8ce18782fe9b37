import Dpll.Engine.Fault
import Dpll.Formula.Valuation

/-!
# Watched clauses

A clause keeps its literals in the order given and watches two of its positions. As long as neither
watched literal is false the clause needs no attention. When one becomes false, `Clause.visit` says
what has to be done: nothing, watch another literal instead, make the other watched literal true, or
report that all literals are false.
-/

set_option autoImplicit false

namespace Dpll

inductive Slot where
  | first
  | second
deriving DecidableEq

namespace Slot

def other : Slot → Slot
  | first => second
  | second => first

def ofNat? : Nat → Option Slot
  | 0 => some first
  | 1 => some second
  | _ => none

end Slot

/-- Literals with two watched positions. The positions are the same only if there is one literal to
watch, and having a position at all means that the clause is not empty. -/
structure Clause where
  literals : Array Literal
  first : Fin literals.size
  second : Fin literals.size
deriving DecidableEq

namespace Clause

/-- A clause that watches its first and its last literal. The empty clause has nothing to watch. -/
def ofLiterals? (literals : Array Literal) : Option Clause :=
  if nonempty : 0 < literals.size then
    some ⟨literals, ⟨0, nonempty⟩, ⟨literals.size - 1, by omega⟩⟩
  else none

def position (clause : Clause) : Slot → Fin clause.literals.size
  | .first => clause.first
  | .second => clause.second

def literalAt (clause : Clause) (position : Fin clause.literals.size) : Literal :=
  clause.literals[position]

def watched (clause : Clause) (slot : Slot) : Literal := clause.literalAt (clause.position slot)

/-- The literals under whose watch lists the clause is kept, one for each watched position. -/
def watchKeys (clause : Clause) : List Literal :=
  if clause.first = clause.second then [clause.watched .first]
  else [clause.watched .first, clause.watched .second]

/-- The slot that watches a literal, the first one if both do. -/
def slotOf? (clause : Clause) (literal : Literal) : Option Slot :=
  if clause.watched .first = literal then some .first
  else if clause.watched .second = literal then some .second
  else none

def move (clause : Clause) (slot : Slot) (position : Fin clause.literals.size) : Clause :=
  match slot with
  | .first => { clause with first := position }
  | .second => { clause with second := position }

/-- The first position that is not watched and whose literal is not false. -/
def replacement? (clause : Clause) (values : Valuation) : Option (Fin clause.literals.size) :=
  (List.finRange clause.literals.size).find? fun position =>
    position ≠ clause.first && position ≠ clause.second &&
      (clause.literalAt position).value values ≠ .fails

def unit? (clause : Clause) : Option Literal :=
  if clause.literals.size = 1 then some (clause.watched .first) else none

def isSatisfied (clause : Clause) (values : Valuation) : Bool :=
  clause.literals.any (·.value values = .holds)

def text (clause : Clause) : String :=
  clause.literals.foldr (fun literal rest => literal.text ++ " " ++ rest) "0"

/-- What a clause needs once a literal that it watches has become false. It is satisfied by its
other watched literal, can watch another position, leaves one literal that has to be true, or is
false in all. A stray clause does not watch the literal. -/
inductive Visit (clause : Clause) where
  | stray
  | satisfied
  | movable (slot : Slot) (position : Fin clause.literals.size)
  | forcing (literal : Literal)
  | refuted

def visit (clause : Clause) (falsified : Literal) (values : Valuation) : Visit clause :=
  match clause.slotOf? falsified with
  | none => .stray
  | some slot =>
    let other := clause.watched slot.other
    if other.value values = .holds then .satisfied
    else match clause.replacement? values with
      | some position => .movable slot position
      | none => if other.value values = .unset then .forcing other else .refuted

end Clause

/-- The place of a clause in the order in which clauses were added. -/
structure ClauseRef where
  index : Nat
deriving DecidableEq, Inhabited

def ClauseRef.text (ref : ClauseRef) : String := "#" ++ toString ref.index

abbrev ClauseStore := Array Clause

namespace ClauseStore

def get? (store : ClauseStore) (ref : ClauseRef) : Option Clause := store[ref.index]?

def nextRef (store : ClauseStore) : ClauseRef := ⟨store.size⟩

def add (store : ClauseStore) (literals : Array Literal) :
    Except Fault (ClauseRef × ClauseStore) :=
  match Clause.ofLiterals? literals with
  | none => .error .emptyClause
  | some clause => .ok (store.nextRef, store.push clause)

def allSatisfied (store : ClauseStore) (values : Valuation) : Bool :=
  store.all (·.isSatisfied values)

end ClauseStore

end Dpll
