import Dpll.Engine.Clause

/-!
# The journal

Everything noteworthy that happens in the engine is an event. A journal keeps the events if it is
asked to, and the progress lines that a long search produces. Nothing in the engine reads it.
-/

set_option autoImplicit false

namespace Dpll

/-- Why the literals made true so far cannot all be kept: a clause is false in all literals, or a
literal was to be made true and is false. -/
inductive Conflict where
  | clause (ref : ClauseRef)
  | assignment (literal : Literal)
deriving DecidableEq

inductive Status where
  | unknown
  | sat
  | unsat
deriving DecidableEq

namespace Status

def code : Status → Nat
  | unknown => 0
  | sat => 10
  | unsat => 20

def name : Status → String
  | unknown => "Unknown"
  | sat => "Sat"
  | unsat => "Unsat"

end Status

inductive Severity where
  | error
  | info
  | debug
  | trace
deriving DecidableEq

def Severity.text : Severity → String
  | error => "ERROR"
  | info => "INFO"
  | debug => "DEBUG"
  | trace => "TRACE"

inductive Event where
  | headerRead (variableCount clauseCount : Nat)
  | clauseRefused (number : Nat)
  | clauseAdded (ref : ClauseRef) (clause : Clause)
  | emptyClauseAdded (index : Nat)
  | assigned (literal : Literal) (level : Nat)
  | rejected (literal : Literal) (level : Nat)
  | unassigned (count level : Nat)
  | forced (ref : ClauseRef) (literal : Literal)
  | rewatched (ref : ClauseRef) (literal former : Literal)
  | strayWatch (ref : ClauseRef) (literal : Literal)
  | conflicted (literal : Literal) (conflict : Conflict)
  | decided (literal : Literal) (level : Nat)
  | flipped (var : Var) (level : Nat)
  | limitReached
  | finished (status : Status) (decisions conflicts : Nat)

/-- How a conflict is shown inside an event: the kind of conflict around the index or the code. -/
def Conflict.shown : Conflict → String
  | .clause ref => "Clause(ClauseRef \x7b repr: " ++ toString ref.index ++ " \x7d)"
  | .assignment literal => "Assignment(Literal \x7b repr: " ++ toString literal.code ++ " \x7d)"

namespace Event

def severity : Event → Severity
  | strayWatch .. => .error
  | emptyClauseAdded .. | limitReached | finished .. => .info
  | headerRead .. | clauseRefused .. | decided .. | flipped .. => .debug
  | clauseAdded .. | assigned .. | rejected .. | unassigned .. | forced .. | rewatched ..
  | conflicted .. => .trace

def topic : Event → String
  | headerRead .. | clauseRefused .. => "parse"
  | clauseAdded .. | emptyClauseAdded .. => "clause_db"
  | assigned .. | rejected .. | unassigned .. => "trail"
  | forced .. | rewatched .. | strayWatch .. | conflicted .. => "propagation"
  | decided .. | flipped .. | limitReached | finished .. => "search"

def message : Event → String
  | headerRead variableCount clauseCount =>
    s!"Header declares {variableCount} variables and {clauseCount} clauses"
  | clauseRefused number => s!"Clause {number} makes the formula unsatisfiable"
  | clauseAdded ref clause => s!"Added clause {ref.text}: {clause.text}"
  | emptyClauseAdded index => s!"Empty clause {index} added"
  | assigned literal level => s!"Assigned {literal.text} at level {level}"
  | rejected literal level => s!"Rejected {literal.text} at level {level}"
  | unassigned count level => s!"Unassigned {count} literals down to level {level}"
  | forced ref literal => s!"Clause {ref.text} forces {literal.text}"
  | rewatched ref literal former =>
    s!"Clause {ref.text} now watches {literal.text} instead of {former.text}"
  | strayWatch ref literal =>
    s!"Clause {ref.text} is listed under {literal.text} without watching it"
  | conflicted literal conflict =>
    s!"Propagating {literal.text} ended in conflict {conflict.shown}"
  | decided literal level => s!"Decided {literal.text} at level {level}"
  | flipped var level => s!"Flipped variable {var + 1} at level {level}"
  | limitReached => "Search limit reached"
  | finished status decisions conflicts =>
    s!"Finished with {status.name} after {decisions} decisions and {conflicts} conflicts"

def line (event : Event) : String := s!"{event.severity.text} {event.topic}: {event.message}"

end Event

structure Progress where
  decisions : Nat
  conflicts : Nat
  propagations : Nat
  level : Nat
  assigned : Nat

/-- What was noted while the engine ran, the newest first, and whether events are kept. -/
structure Journal where
  recording : Bool := false
  events : List Event := []
  progress : List Progress := []

namespace Journal

def record (journal : Journal) (event : Event) : Journal :=
  if journal.recording then { journal with events := event :: journal.events } else journal

def report (journal : Journal) (progress : Progress) : Journal :=
  { journal with progress := progress :: journal.progress }

def lines (journal : Journal) : List String := journal.events.reverse.map Event.line

def cleared (journal : Journal) : Journal := { recording := journal.recording }

end Journal

end Dpll
