import Dpll.Engine.Solver
import Dpll.Proofs.Valuations

/-!
# The watch index follows the clauses

Clauses know their watched positions and the index lists the clauses of each literal: two records of
one fact. `WatchIndex.Tracks` says that both agree to the number of occurrences, so a clause that
watches a literal twice is listed under it twice. Growing the tables, adding a clause and moving a
watch keep it.
-/

set_option autoImplicit false

namespace Dpll

@[simp] theorem Slot.other_other (slot : Slot) : slot.other.other = slot := by
  cases slot <;> rfl

theorem Slot.eq_or_eq_other (slot other : Slot) : other = slot ∨ other = slot.other := by
  cases slot <;> cases other <;> simp [Slot.other]

namespace Clause

variable {clause : Clause} {literal : Literal}

@[simp] theorem literals_move (clause : Clause) (slot : Slot)
    (position : Fin clause.literals.size) :
    (clause.move slot position).literals = clause.literals := by
  cases slot <;> rfl

@[simp] theorem watched_move_self (clause : Clause) (slot : Slot)
    (position : Fin clause.literals.size) :
    (clause.move slot position).watched slot = clause.literalAt position := by
  cases slot <;> rfl

@[simp] theorem watched_move_other (clause : Clause) (slot : Slot)
    (position : Fin clause.literals.size) :
    (clause.move slot position).watched slot.other = clause.watched slot.other := by
  cases slot <;> rfl

theorem literalAt_mem (clause : Clause) (position : Fin clause.literals.size) :
    clause.literalAt position ∈ clause.literals :=
  Array.getElem_mem position.isLt

theorem watched_mem (clause : Clause) (slot : Slot) : clause.watched slot ∈ clause.literals :=
  clause.literalAt_mem _

theorem exists_literalAt (member : literal ∈ clause.literals) :
    ∃ position, clause.literalAt position = literal := by
  obtain ⟨index, inside, found⟩ := Array.mem_iff_getElem.mp member
  exact ⟨⟨index, inside⟩, found⟩

private theorem mem_watchKeys_iff :
    literal ∈ clause.watchKeys ↔ ∃ slot, clause.watched slot = literal := by
  unfold watchKeys
  split
  · rename_i same
    have equal : clause.watched .second = clause.watched .first := by
      simp [watched, position, same]
    constructor
    · intro member
      exact ⟨.first, (List.mem_singleton.mp member).symm⟩
    · rintro ⟨slot, rfl⟩
      cases slot
      · exact .head _
      · rw [equal]; exact .head _
  · constructor
    · intro member
      rcases List.mem_cons.mp member with first | rest
      · exact ⟨.first, first.symm⟩
      · exact ⟨.second, (List.mem_singleton.mp rest).symm⟩
    · rintro ⟨slot, rfl⟩
      cases slot
      · exact .head _
      · exact .tail _ (.head _)

private theorem count_watchKeys (apart : clause.first ≠ clause.second) (slot : Slot)
    (literal : Literal) :
    clause.watchKeys.count literal =
      (if clause.watched slot = literal then 1 else 0) +
        if clause.watched slot.other = literal then 1 else 0 := by
  have each : clause.watchKeys.count literal =
      (if clause.watched .first = literal then 1 else 0) +
        if clause.watched .second = literal then 1 else 0 := by
    by_cases first : clause.watched .first = literal <;>
      by_cases second : clause.watched .second = literal <;>
        simp [watchKeys, apart, first, second]
  cases slot
  · exact each
  · rw [each]; exact Nat.add_comm ..

private theorem first_move_ne_second_move (clause : Clause) {position : Fin clause.literals.size}
    (notFirst : position ≠ clause.first) (notSecond : position ≠ clause.second) (slot : Slot) :
    (clause.move slot position).first ≠ (clause.move slot position).second := by
  cases slot
  · exact notSecond
  · exact fun same => notFirst same.symm

private theorem count_watchKeys_move (apart : clause.first ≠ clause.second) {slot : Slot}
    {position : Fin clause.literals.size} (notFirst : position ≠ clause.first)
    (notSecond : position ≠ clause.second) (literal : Literal) :
    (clause.move slot position).watchKeys.count literal +
        (if clause.watched slot = literal then 1 else 0) =
      clause.watchKeys.count literal +
        if clause.literalAt position = literal then 1 else 0 := by
  rw [count_watchKeys (clause.first_move_ne_second_move notFirst notSecond slot) slot,
    count_watchKeys apart slot, watched_move_self, watched_move_other]
  omega

end Clause

/-- The literals under which the index is to list a clause. A reference to no clause asks for none. -/
def ClauseStore.keysAt (store : ClauseStore) (ref : ClauseRef) : List Literal :=
  match store.get? ref with
  | some clause => clause.watchKeys
  | none => []

private theorem ClauseRef.index_ne {ref other : ClauseRef} (different : ref ≠ other) :
    ref.index ≠ other.index := by
  intro same
  apply different
  cases ref
  cases other
  simpa using same

private theorem ClauseStore.keysAt_push_next (store : ClauseStore) (clause : Clause) :
    ClauseStore.keysAt (store.push clause) store.nextRef = clause.watchKeys := by
  simp [keysAt, get?, nextRef]

private theorem ClauseStore.keysAt_nextRef (store : ClauseStore) :
    store.keysAt store.nextRef = [] := by
  simp [keysAt, get?, nextRef]

private theorem ClauseStore.keysAt_push_of_ne {store : ClauseStore} {ref : ClauseRef}
    (older : ref ≠ store.nextRef) (clause : Clause) :
    ClauseStore.keysAt (store.push clause) ref = store.keysAt ref := by
  have differs : ref.index ≠ store.size := ClauseRef.index_ne older
  simp [keysAt, get?, Array.getElem?_push, differs]

theorem ClauseStore.get?_set_self {store : ClauseStore} {ref : ClauseRef} {clause former : Clause}
    (found : store.get? ref = some former) :
    ClauseStore.get? (store.setIfInBounds ref.index clause) ref = some clause := by
  obtain ⟨inside, -⟩ := Array.getElem?_eq_some_iff.mp found
  simp [get?, inside]

theorem ClauseStore.get?_set_of_ne {store : ClauseStore} {ref other : ClauseRef}
    (different : other ≠ ref) (clause : Clause) :
    ClauseStore.get? (store.setIfInBounds ref.index clause) other = store.get? other := by
  have differs : ref.index ≠ other.index := ClauseRef.index_ne (Ne.symm different)
  simp [get?, differs]

theorem ClauseStore.mem_of_get? {store : ClauseStore} {ref : ClauseRef} {clause : Clause}
    (found : store.get? ref = some clause) : clause ∈ store :=
  Array.mem_of_getElem? found

theorem ClauseStore.exists_get?_of_mem {store : ClauseStore} {clause : Clause}
    (member : clause ∈ store) : ∃ ref, store.get? ref = some clause := by
  obtain ⟨index, found⟩ := Array.mem_iff_getElem?.mp member
  exact ⟨⟨index⟩, found⟩

private theorem ClauseStore.count_keysAt_move {store : ClauseStore} {ref : ClauseRef}
    {clause : Clause}
    (found : store.get? ref = some clause) (apart : clause.first ≠ clause.second)
    {position : Fin clause.literals.size} (notFirst : position ≠ clause.first)
    (notSecond : position ≠ clause.second) (slot : Slot) (other : ClauseRef) (literal : Literal) :
    (ClauseStore.keysAt (store.setIfInBounds ref.index (clause.move slot position)) other).count
        literal + (if other = ref ∧ clause.watched slot = literal then 1 else 0) =
      (store.keysAt other).count literal +
        if other = ref ∧ clause.literalAt position = literal then 1 else 0 := by
  by_cases sameRef : other = ref
  · subst sameRef
    simp only [keysAt, found, get?_set_self found, true_and]
    exact Clause.count_watchKeys_move apart notFirst notSecond literal
  · simp [keysAt, get?_set_of_ne sameRef, sameRef]

namespace WatchIndex

private theorem watchedBy_grow (index : WatchIndex) (count : Nat) (literal : Literal) :
    (index.grow count).watchedBy literal = index.watchedBy literal := by
  simp only [watchedBy, grow, Array.getD_eq_getD_getElem?, Array.getElem?_append]
  split
  · rfl
  · rename_i beyond
    rw [Array.getElem?_eq_none (Nat.le_of_not_lt beyond), Array.getElem?_replicate]
    split <;> rfl

theorem watchedBy_watch_self {index : WatchIndex} {literal : Literal}
    (covered : index.Covers literal) (ref : ClauseRef) :
    (index.watch literal ref).watchedBy literal = (index.watchedBy literal).push ref := by
  have inside : literal.code < index.lists.size := covered
  simp [watchedBy, watch, Array.getD_eq_getD_getElem?, Array.getElem_modify, inside]

theorem watchedBy_watch_of_ne {index : WatchIndex} {literal other : Literal}
    (different : other ≠ literal) (ref : ClauseRef) :
    (index.watch literal ref).watchedBy other = index.watchedBy other := by
  have codes : literal.code ≠ other.code := by
    intro same
    apply different
    cases other
    cases literal
    simpa using same.symm
  simp [watchedBy, watch, Array.getD_eq_getD_getElem?, Array.getElem?_modify, codes]

theorem watchedBy_replace_self {index : WatchIndex} {literal : Literal}
    (covered : index.Covers literal) (refs : Array ClauseRef) :
    (index.replace literal refs).watchedBy literal = refs := by
  have inside : literal.code < index.lists.size := covered
  simp [watchedBy, replace, Array.getD_eq_getD_getElem?, inside]

theorem watchedBy_replace_of_ne {index : WatchIndex} {literal other : Literal}
    (different : other ≠ literal) (refs : Array ClauseRef) :
    (index.replace literal refs).watchedBy other = index.watchedBy other := by
  have codes : literal.code ≠ other.code := by
    intro same
    apply different
    cases other
    cases literal
    simpa using same.symm
  simp [watchedBy, replace, Array.getD_eq_getD_getElem?, codes]

/-- Listing a clause under covered literals adds it once to the list of each. -/
theorem exists_watchAll {index : WatchIndex} {keys : List Literal} (ref : ClauseRef)
    (covered : ∀ literal ∈ keys, index.Covers literal) :
    ∃ next, Solver.watchAll index ref keys = .ok next ∧ next.lists.size = index.lists.size ∧
      ∀ (other : ClauseRef) (literal : Literal), (next.watchedBy literal).count other =
        (index.watchedBy literal).count other + if other = ref then keys.count literal else 0 := by
  induction keys generalizing index with
  | nil => exact ⟨index, rfl, rfl, by simp⟩
  | cons key rest ih =>
      have coversKey := covered key (.head _)
      have coversRest : ∀ literal ∈ rest, (index.watch key ref).Covers literal := by
        intro literal member
        simpa [Covers, watch] using covered literal (.tail _ member)
      obtain ⟨next, listed, size, counts⟩ := ih coversRest
      refine ⟨next, by simpa [Solver.watchAll, coversKey] using listed, ?_, ?_⟩
      · simpa [watch] using size
      · intro other literal
        rw [counts]
        by_cases same : literal = key
        · subst same
          rw [watchedBy_watch_self coversKey, Array.count_push]
          by_cases sameRef : other = ref
          · simp [sameRef, Nat.add_assoc, Nat.add_comm]
          · simp [sameRef, Ne.symm sameRef]
        · rw [watchedBy_watch_of_ne same]
          simp [Ne.symm same]

/-- A clause that leaves one list for another is counted once less there and once more here. -/
theorem count_watchedBy_rewatch {index : WatchIndex} {falsified target : Literal}
    (coversFalsified : index.Covers falsified) (coversTarget : index.Covers target)
    (different : target ≠ falsified) (kept : Array ClauseRef) (rest : List ClauseRef)
    (ref other : ClauseRef) (literal : Literal) :
    (((index.watch target ref).replace falsified (kept ++ rest.toArray)).watchedBy literal).count
        other + (if other = ref ∧ falsified = literal then 1 else 0) =
      ((index.replace falsified (kept ++ (ref :: rest).toArray)).watchedBy literal).count other +
        if other = ref ∧ target = literal then 1 else 0 := by
  have coversStill : (index.watch target ref).Covers falsified := by
    simpa [Covers, watch] using coversFalsified
  have sameRef : (ref == other) = decide (other = ref) := by
    by_cases equal : other = ref
    · simp [equal]
    · simp [equal, Ne.symm equal]
  by_cases isFalsified : literal = falsified
  · subst isFalsified
    rw [watchedBy_replace_self coversStill, watchedBy_replace_self coversFalsified]
    simp [List.count_cons, different, sameRef, Nat.add_assoc]
  · rw [watchedBy_replace_of_ne isFalsified, watchedBy_replace_of_ne isFalsified]
    by_cases isTarget : literal = target
    · subst isTarget
      rw [watchedBy_watch_self coversTarget, Array.count_push]
      simp [Ne.symm different, sameRef]
    · rw [watchedBy_watch_of_ne isTarget]
      simp [Ne.symm isFalsified, Ne.symm isTarget]

/-- For every literal the index lists the clauses that watch it, as often as they do. -/
structure Tracks (index : WatchIndex) (clauses : ClauseStore) (count : Nat) : Prop where
  size_eq : index.lists.size = 2 * count
  inside : ∀ clause ∈ clauses, ∀ literal ∈ clause.literals, literal.var < count
  apart : ∀ clause ∈ clauses, clause.first = clause.second → clause.literals.size = 1
  listed (ref : ClauseRef) (literal : Literal) :
    (index.watchedBy literal).count ref = (clauses.keysAt ref).count literal

namespace Tracks

variable {index : WatchIndex} {clauses : ClauseStore} {count : Nat} {ref : ClauseRef}
  {clause : Clause} {literal : Literal}

theorem empty : WatchIndex.Tracks {} #[] 0 where
  size_eq := rfl
  inside := by simp
  apart := by simp
  listed ref literal := by
    simp [watchedBy, ClauseStore.keysAt, ClauseStore.get?]

theorem covers (tracks : index.Tracks clauses count) (small : literal.var < count) :
    index.Covers literal := by
  have half : literal.code / 2 < count := small
  have size := tracks.size_eq
  change literal.code < index.lists.size
  omega

theorem covers_of_mem (tracks : index.Tracks clauses count) (member : clause ∈ clauses)
    (inClause : literal ∈ clause.literals) : index.Covers literal :=
  tracks.covers (tracks.inside clause member literal inClause)

theorem watches_of_listed (tracks : index.Tracks clauses count)
    (member : ref ∈ index.watchedBy literal) :
    ∃ clause, clauses.get? ref = some clause ∧ ∃ slot, clause.watched slot = literal := by
  have positive : 0 < (clauses.keysAt ref).count literal := by
    rw [← tracks.listed]
    exact Array.count_pos_iff.mpr member
  have key := List.count_pos_iff.mp positive
  unfold ClauseStore.keysAt at key
  split at key
  · rename_i clause found
    exact ⟨clause, found, Clause.mem_watchKeys_iff.mp key⟩
  · cases key

theorem listed_of_watches (tracks : index.Tracks clauses count)
    (found : clauses.get? ref = some clause) {slot : Slot} (watching : clause.watched slot = literal) :
    ref ∈ index.watchedBy literal := by
  have key : literal ∈ clauses.keysAt ref := by
    simp only [ClauseStore.keysAt, found]
    exact Clause.mem_watchKeys_iff.mpr ⟨slot, watching⟩
  apply Array.count_pos_iff.mp
  rw [tracks.listed]
  exact List.count_pos_iff.mpr key

/-- Two positions are watched wherever there is a third one to watch. -/
theorem apart_of_ne (tracks : index.Tracks clauses count) (member : clause ∈ clauses)
    {position : Fin clause.literals.size} (notFirst : position ≠ clause.first) :
    clause.first ≠ clause.second := by
  intro same
  have single := tracks.apart clause member same
  apply notFirst
  have first := clause.first.isLt
  have here := position.isLt
  exact Fin.ext (by omega)

theorem grow (tracks : index.Tracks clauses count) {more : Nat} (larger : count ≤ more) :
    (index.grow more).Tracks clauses more where
  size_eq := by
    have size := tracks.size_eq
    simp only [WatchIndex.grow, Array.size_append, Array.size_replicate]
    omega
  inside clause member literal inClause :=
    Nat.lt_of_lt_of_le (tracks.inside clause member literal inClause) larger
  apart := tracks.apart
  listed ref literal := by rw [watchedBy_grow]; exact tracks.listed ref literal

/-- While the list of a literal is taken apart, the clause that is looked at may move a watch away
from the literal: it leaves the list and joins the one of the new literal. -/
theorem rewatch {falsified : Literal} {kept : Array ClauseRef} {rest : List ClauseRef}
    (tracks : (index.replace falsified (kept ++ (ref :: rest).toArray)).Tracks clauses count)
    (found : clauses.get? ref = some clause) {slot : Slot}
    (watching : clause.watched slot = falsified) {position : Fin clause.literals.size}
    (notFirst : position ≠ clause.first) (notSecond : position ≠ clause.second)
    (different : clause.literalAt position ≠ falsified) :
    ((index.watch (clause.literalAt position) ref).replace falsified
      (kept ++ rest.toArray)).Tracks
        (clauses.setIfInBounds ref.index (clause.move slot position)) count := by
  have member := ClauseStore.mem_of_get? found
  have coversFalsified : index.Covers falsified := by
    simpa [Covers, replace] using
      tracks.covers_of_mem member (watching ▸ clause.watched_mem slot)
  have coversNew : index.Covers (clause.literalAt position) := by
    simpa [Covers, replace] using tracks.covers_of_mem member (clause.literalAt_mem position)
  refine ⟨?_, ?_, ?_, ?_⟩
  · simpa [watch, replace] using tracks.size_eq
  · intro other otherMember literal inClause
    rcases Array.mem_or_eq_of_mem_setIfInBounds otherMember with old | rfl
    · exact tracks.inside other old literal inClause
    · exact tracks.inside clause member literal (by simpa using inClause)
  · intro other otherMember same
    rcases Array.mem_or_eq_of_mem_setIfInBounds otherMember with old | rfl
    · exact tracks.apart other old same
    · exact absurd same (clause.first_move_ne_second_move notFirst notSecond slot)
  · intro other literal
    have before := tracks.listed other literal
    have keys := ClauseStore.count_keysAt_move found (tracks.apart_of_ne member notFirst)
      notFirst notSecond slot other literal
    have lists := count_watchedBy_rewatch coversFalsified coversNew different kept rest ref other
      literal
    rw [watching] at keys
    omega

theorem insert (tracks : index.Tracks clauses count) (clause : Clause)
    (inside : ∀ literal ∈ clause.literals, literal.var < count)
    (apart : clause.first = clause.second → clause.literals.size = 1) :
    ∃ next, Solver.watchAll index clauses.nextRef clause.watchKeys = .ok next ∧
      next.Tracks (clauses.push clause) count := by
  have covered : ∀ literal ∈ clause.watchKeys, index.Covers literal := by
    intro literal key
    obtain ⟨slot, rfl⟩ := Clause.mem_watchKeys_iff.mp key
    exact tracks.covers (inside _ (clause.watched_mem slot))
  obtain ⟨next, listed, size, counts⟩ := exists_watchAll clauses.nextRef covered
  refine ⟨next, listed, size.trans tracks.size_eq, ?_, ?_, ?_⟩
  · intro other member literal inClause
    rcases Array.mem_push.mp member with old | rfl
    · exact tracks.inside other old literal inClause
    · exact inside literal inClause
  · intro other member same
    rcases Array.mem_push.mp member with old | rfl
    · exact tracks.apart other old same
    · exact apart same
  · intro ref literal
    have before := tracks.listed ref literal
    rw [counts, before]
    by_cases added : ref = clauses.nextRef
    · subst added
      rw [ClauseStore.keysAt_push_next, ClauseStore.keysAt_nextRef]
      simp
    · rw [ClauseStore.keysAt_push_of_ne added]
      simp [added]

end Tracks

end WatchIndex

end Dpll
