import Dpll.Engine.Clause

/-!
# Watch lists

For every literal the index lists the clauses that watch it, in the order in which they began to.
Lists are addressed by the code of the literal, so an index for `n` variables has `2 * n` lists.
-/

set_option autoImplicit false

namespace Dpll

/-- One list of clauses per literal code. -/
structure WatchIndex where
  lists : Array (Array ClauseRef) := #[]

namespace WatchIndex

def Covers (index : WatchIndex) (literal : Literal) : Prop := literal.code < index.lists.size

instance (index : WatchIndex) (literal : Literal) : Decidable (index.Covers literal) :=
  inferInstanceAs (Decidable (literal.code < index.lists.size))

/-- Adds empty lists until there are two for each of `count` variables. No list is ever removed. -/
def grow (index : WatchIndex) (count : Nat) : WatchIndex :=
  ⟨index.lists ++ Array.replicate (2 * count - index.lists.size) #[]⟩

def watchedBy (index : WatchIndex) (literal : Literal) : Array ClauseRef :=
  index.lists.getD literal.code #[]

def watch (index : WatchIndex) (literal : Literal) (ref : ClauseRef) : WatchIndex :=
  ⟨index.lists.modify literal.code (·.push ref)⟩

def replace (index : WatchIndex) (literal : Literal) (refs : Array ClauseRef) : WatchIndex :=
  ⟨index.lists.setIfInBounds literal.code refs⟩

end WatchIndex

end Dpll
