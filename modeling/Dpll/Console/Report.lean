import Dpll.Engine.Solver
import Dpll.Text.Numeral

/-!
# Reports

What a run prints: the size of the formula, how the search gets on, a summary and the answer. All
but the answer is printed by verbose runs only.
-/

set_option autoImplicit false

namespace Dpll.Report

open Text

def column (count : Nat) : String := padLeft 12 (toString count)

def seconds (time : Nat) : String := padLeft 12 (fixedPoint 6 time 1000000)

/-- How many there were per second, in a time given in microseconds; none in no time. -/
def perSecond (count time : Nat) : String :=
  padLeft 12 (if time = 0 then fixedPoint 3 0 1 else fixedPoint 3 (count * 1000000) time)

def paragraph (lines : List String) : String := String.join (lines.map (· ++ "\n"))

def spacer : String :=
  "|                                                                             |"

def edge : String :=
  "==============================================================================="

def entry (name value : String) : String :=
  s!"|  {name}{value}                                         |"

def rated (name : String) (count time : Nat) : String :=
  s!"|  {name}{column count} ({perSecond count time}/sec)                      |"

/-- The size of a formula and the time it took to read it. The last line is left open. -/
def problem (statistics : Statistics) (readTime : Nat) : String :=
  paragraph [
    "",
    "============================[ Problem Statistics ]=============================",
    spacer,
    entry "Number of variables:  " (column statistics.variableCount),
    entry "Number of clauses:    " (column statistics.clauseCount),
    entry "Number of literals:   " (column statistics.literalCount),
    entry "Parse time:           " (seconds readTime)] ++ spacer

/-- The head of the table of progress lines, which begins by ending the line before. -/
def progressHead : String :=
  paragraph [
    "",
    "============================[ Search Statistics ]==============================",
    "|    Decisions |    Conflicts | Propagations |    Level |     Assigned |",
    edge]

def progressLine (progress : Progress) : String :=
  s!"| {column progress.decisions} | {column progress.conflicts} | " ++
    s!"{column progress.propagations} | {padLeft 8 (toString progress.level)} | " ++
    s!"{column progress.assigned} |"

def progressLines (journal : Journal) : String :=
  paragraph (journal.progress.reverse.map progressLine)

def summary (statistics : Statistics) (totalTime : Nat) : String :=
  paragraph [
    "============================[      Summary      ]==============================",
    spacer,
    entry "#Decisions:           " (column statistics.decisions),
    rated "#Conflicts:           " statistics.conflicts totalTime,
    entry "#Backtracks:          " (column statistics.backtracks),
    rated "#Propagations:        " statistics.propagations totalTime,
    entry "Max decision level:   " (column statistics.maxLevel),
    entry "Total time:           " (seconds totalTime),
    spacer,
    edge]

/-- The value of a variable as a literal that is true; an undecided variable counts as false. -/
def signed (truth : Truth) (var : Var) : String :=
  if truth = .holds then toString (var + 1) else s!"-{var + 1}"

/-- The answer in one line: for a satisfiable formula, the values of all variables. -/
def answer (status : Status) (model : Valuation) : String :=
  match status with
  | .unknown => "UNKNOWN"
  | .unsat => "UNSAT"
  | .sat =>
    String.join ("SAT" :: (model.toList.zipIdx.map fun (truth, var) => " " ++ signed truth var))

def before (solver : Solver) (readTime : Nat) : String :=
  if solver.options.verbose then problem solver.statistics readTime ++ progressHead else ""

def after (solver : Solver) (status : Status) (totalTime : Nat) : String :=
  (if solver.options.verbose then summary solver.statistics totalTime else "") ++
    paragraph ["", answer status solver.model]

end Dpll.Report
