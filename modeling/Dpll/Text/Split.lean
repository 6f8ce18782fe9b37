/-!
# Splitting

Cutting a list at separators keeps every piece between them, also the empty ones, so that a list
with `n` separators has `n + 1` pieces.
-/

set_option autoImplicit false

namespace Dpll.Text

def extendFirst {α : Type} (element : α) : List (List α) → List (List α)
  | [] => [[element]]
  | piece :: rest => (element :: piece) :: rest

/-- The pieces of a list between the elements that satisfy the test. -/
def pieces {α : Type} (isSeparator : α → Bool) (elements : List α) : List (List α) :=
  elements.foldr
    (fun element rest => if isSeparator element then [] :: rest else extendFirst element rest) [[]]

end Dpll.Text
