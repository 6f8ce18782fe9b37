import Dpll.Engine.Propagation

/-!
# The sweep in place

A watch list is swept within its own array. `Cursor.read` is the place of the next clause to visit and
`Cursor.write` the place for the next clause that stays, so the places below `write` hold what stays and
those from `read` on what was not visited. After a conflict the latter are copied down, and the array is
cut at `write`. Main statement: `Solver.sweepInPlace_eq`.
-/

set_option autoImplicit false

namespace Dpll

namespace Solver

/-- An array under a sweep. What is written was read before. -/
structure Cursor where
  list : Array ClauseRef
  read : Nat
  write : Nat
  write_le_read : write ≤ read
  read_le_size : read ≤ list.size

namespace Cursor

def start (list : Array ClauseRef) : Cursor where
  list := list
  read := 0
  write := 0
  write_le_read := Nat.le_refl 0
  read_le_size := Nat.zero_le _

def More (cursor : Cursor) : Prop := cursor.read < cursor.list.size

instance (cursor : Cursor) : Decidable cursor.More := Nat.decLt ..

def current (cursor : Cursor) (more : cursor.More) : ClauseRef := cursor.list[cursor.read]

def drop (cursor : Cursor) (more : cursor.More) : Cursor where
  list := cursor.list
  read := cursor.read + 1
  write := cursor.write
  write_le_read := Nat.le_succ_of_le cursor.write_le_read
  read_le_size := more

def keep (cursor : Cursor) (more : cursor.More) : Cursor where
  list := cursor.list.set cursor.write (cursor.current more)
    (Nat.lt_of_le_of_lt cursor.write_le_read more)
  read := cursor.read + 1
  write := cursor.write + 1
  write_le_read := Nat.succ_le_succ cursor.write_le_read
  read_le_size := by
    rw [Array.size_set]
    exact more

/-- Copies down what was not visited. -/
def keepAll (cursor : Cursor) : Cursor :=
  if more : cursor.More then (cursor.keep more).keepAll else cursor
termination_by cursor.list.size - cursor.read
decreasing_by
  have inside : cursor.read < cursor.list.size := more
  simp only [keep, Array.size_set]
  omega

def truncate (cursor : Cursor) : Array ClauseRef := cursor.list.extract 0 cursor.write

end Cursor

structure Scan where
  solver : Solver
  cursor : Cursor
  conflict : Option Conflict

def Scan.finish (scan : Scan) : Sweep :=
  ⟨scan.solver, scan.cursor.keepAll.truncate, scan.conflict⟩

/-- Visits the clauses from the place of the cursor on, until the list ends or a conflict is met. -/
def scan (falsified : Literal) (cursor : Cursor) (solver : Solver) : Except Fault Scan :=
  if more : cursor.More then
    match solver.clauses.get? (cursor.current more) with
    | none => .error (.noClause (cursor.current more).index)
    | some clause =>
      match clause.visit falsified solver.model with
      | .stray =>
        scan falsified (cursor.drop more)
          (solver.record (.strayWatch (cursor.current more) falsified))
      | .satisfied => scan falsified (cursor.keep more) solver
      | .movable slot position =>
        if solver.watches.Covers (clause.literalAt position) then
          scan falsified (cursor.drop more)
            (solver.rewatch (cursor.current more) clause slot position)
        else .error (.noWatchList (clause.literalAt position))
      | .forcing literal =>
        match (solver.record (.forced (cursor.current more) literal)).push literal with
        | .error fault => .error fault
        | .ok (none, solver) => scan falsified (cursor.keep more) solver
        | .ok (some conflict, solver) => .ok ⟨solver, cursor.keep more, some conflict⟩
      | .refuted => .ok ⟨solver, cursor.keep more, some (.clause (cursor.current more))⟩
  else .ok ⟨solver, cursor, none⟩
termination_by cursor.list.size - cursor.read
decreasing_by
  all_goals
    have inside : cursor.read < cursor.list.size := more
    simp only [Cursor.keep, Cursor.drop, Array.size_set]
    omega

/-- Visits all clauses listed under a literal that has become false, within the array of the list. -/
def sweepInPlace (solver : Solver) (falsified : Literal) : Except Fault Sweep :=
  (scan falsified (.start (solver.watches.watchedBy falsified))
    (solver.setWatchList falsified #[])).map Scan.finish

namespace Cursor

def rest (cursor : Cursor) : List ClauseRef := cursor.list.toList.drop cursor.read

variable {cursor : Cursor} (more : cursor.More)

private theorem rest_eq_nil (ended : ¬ cursor.More) : cursor.rest = [] := by
  rw [rest, List.drop_eq_nil_iff, Array.length_toList]
  exact Nat.le_of_not_lt ended

private theorem rest_eq_cons : cursor.rest = cursor.current more :: (cursor.drop more).rest := by
  have inside : cursor.read < cursor.list.toList.length := more
  exact List.drop_eq_getElem_cons inside

/-- A clause is written below the place that it was read from. -/
theorem rest_keep : (cursor.keep more).rest = (cursor.drop more).rest := by
  have below := Nat.lt_succ_of_le cursor.write_le_read
  simp only [rest, keep, drop, Array.toList_set, List.drop_set_of_lt below]

private theorem truncate_keep :
    (cursor.keep more).truncate = cursor.truncate.push (cursor.current more) := by
  have inside : cursor.write < cursor.list.size := Nat.lt_of_le_of_lt cursor.write_le_read more
  apply Array.ext
  · simp only [truncate, keep, Array.size_extract, Array.size_set, Array.size_push]
    omega
  · intro place left right
    have bound : place < cursor.write + 1 := by
      simp only [truncate, keep, Array.size_extract] at left
      omega
    rcases Nat.lt_succ_iff_lt_or_eq.mp bound with below | rfl
    · have fits : min cursor.write cursor.list.size = cursor.write :=
        Nat.min_eq_left (Nat.le_of_lt inside)
      simp [truncate, keep, Array.getElem_push, Array.getElem_set, Nat.ne_of_gt below, below, fits]
    · simp [truncate, keep, Array.getElem_push, Nat.le_of_lt inside]

private theorem truncate_keepAll (cursor : Cursor) :
    cursor.keepAll.truncate = cursor.truncate ++ cursor.rest.toArray := by
  fun_induction keepAll cursor with
  | case1 cursor more ih =>
      rw [ih, truncate_keep, rest_keep, rest_eq_cons more]
      simp
  | case2 cursor ended => simp [rest_eq_nil ended]

end Cursor

private theorem Scan.finish_keep {cursor : Cursor} (more : cursor.More) (solver : Solver)
    (conflict : Option Conflict) :
    Scan.finish ⟨solver, cursor.keep more, conflict⟩ =
      ⟨solver, cursor.truncate.push (cursor.current more) ++ (cursor.drop more).rest.toArray,
        conflict⟩ := by
  rw [Scan.finish, Cursor.truncate_keepAll, Cursor.truncate_keep, Cursor.rest_keep]

/-- From any place on, the visits end as if the clauses that stay were collected apart. -/
theorem sweep_rest (falsified : Literal) (cursor : Cursor) (solver : Solver) :
    sweep falsified cursor.rest cursor.truncate solver =
      (scan falsified cursor solver).map Scan.finish := by
  fun_induction scan falsified cursor solver with
  | case1 cursor solver more missing =>
      simp only [Cursor.rest_eq_cons more, sweep, missing, Except.map]
  | case2 cursor solver more clause found visited ih =>
      simp only [Cursor.rest_eq_cons more, sweep, found, visited, ← ih]
      rfl
  | case3 cursor solver more clause found visited ih =>
      simp only [Cursor.rest_eq_cons more, sweep, found, visited, ← ih, Cursor.rest_keep,
        Cursor.truncate_keep]
  | case4 cursor solver more clause found slot position visited covered ih =>
      simp only [Cursor.rest_eq_cons more, sweep, found, visited, covered, ← ih, ↓reduceIte]
      rfl
  | case5 cursor solver more clause found slot position visited uncovered =>
      simp only [Cursor.rest_eq_cons more, sweep, found, visited, uncovered, ↓reduceIte, Except.map]
  | case6 cursor solver more clause found literal visited fault pushed =>
      simp only [Cursor.rest_eq_cons more, sweep, found, visited, pushed, Except.map]
  | case7 cursor solver more clause found literal visited next pushed ih =>
      simp only [Cursor.rest_eq_cons more, sweep, found, visited, pushed, ← ih, Cursor.rest_keep,
        Cursor.truncate_keep]
  | case8 cursor solver more clause found literal visited conflict next pushed =>
      simp only [Cursor.rest_eq_cons more, sweep, found, visited, pushed, Except.map,
        Scan.finish_keep]
  | case9 cursor solver more clause found visited =>
      simp only [Cursor.rest_eq_cons more, sweep, found, visited, Except.map, Scan.finish_keep]
  | case10 cursor solver ended =>
      simp [Cursor.rest_eq_nil ended, sweep, Except.map, Scan.finish, Cursor.truncate_keepAll]

/-- Sweeping within the array of the list gives what collecting the clauses that stay apart gives. -/
theorem sweepInPlace_eq (solver : Solver) (falsified : Literal) :
    solver.sweepInPlace falsified = solver.sweepAll falsified := by
  let list := solver.watches.watchedBy falsified
  have untouched : (Cursor.start list).truncate = #[] := Array.extract_zero
  have whole : (Cursor.start list).rest = list.toList := List.drop_zero
  rw [sweepInPlace, sweepAll, ← sweep_rest, untouched, whole]

end Solver

end Dpll
