import Dpll.Console.Arguments
import Dpll.Console.Report
import Dpll.Dimacs.Receivers
import Dpll.Files.Opening

/-!
# Runs

A run reads a formula from a file, searches and prints. What it prints depends on the files, the
options and the times that it is told, and on nothing else.
-/

set_option autoImplicit false

namespace Dpll.Console

/-- How long the parts of a run took, in microseconds. -/
structure Timing where
  reading : Nat := 0
  total : Nat := 0

def load (memory : Memory) (options : Options) (name : String) (found : Files.Found) :
    Except Fault (Except Dimacs.ReadError Solver) :=
  match Files.readFound memory Dimacs.solverReceiver name found (.ok { options }) with
  | (error, reader) => reader.receiver.map fun solver =>
    match error with
    | some error => .error error
    | none => .ok solver

/-- Solves the formula in what was found under a name. Gives the answer, or the error that was met
while reading, and what is printed. -/
def solveFound (memory : Memory) (clock : Clock) (timing : Timing) (options : Options)
    (name : String) (found : Files.Found) : Except Fault (Except Dimacs.ReadError Status × String) := do
  match ← load memory options name found with
  | .error error => return (.error error, "")
  | .ok solver =>
    let opening := Report.before solver timing.reading
    let (status, solver) ← solver.solve clock
    return (.ok status,
      opening ++ Report.progressLines solver.journal ++ Report.after solver status timing.total)

structure Exit where
  code : Nat
  output : String := ""
  errors : String := ""
deriving DecidableEq

namespace Exit

def usageCode : Nat := 2

def faultCode : Nat := 101

def unreadCode : Nat := 1

def usage (error : UsageError) : Exit :=
  { code := usageCode, errors := s!"error: {error.message}\n" }

def fault : Exit := { code := faultCode, errors := "internal fault\n" }

def unread (file : String) (error : Dimacs.ReadError) : Exit :=
  { code := unreadCode, errors := s!"{error.message file}.\n" }

end Exit

def versionText : String := "dpllsat-rs 0.1.0\n"

def helpText : String :=
  Report.paragraph [
    "Decides satisfiability of a DIMACS CNF formula",
    "",
    "Usage: dpllsat-rs [OPTIONS] <FILE>",
    "",
    "Arguments:",
    "  <FILE>  A `.cnf`, `.cnf.xz`, or `.cnf.gz` file",
    "",
    "Options:",
    "  -q, --quiet                       Only print the result",
    "      --decision-limit <DECISIONS>  Give up after this many decisions",
    "      --time-limit <SECONDS>        Give up after this many seconds",
    "  -h, --help                        Print help",
    "  -V, --version                     Print version"]

def run (memory : Memory) (clock : Clock) (timing : Timing) (find : String → Files.Found)
    (arguments : List String) : Exit :=
  match readArguments {} arguments with
  | .error error => .usage error
  | .ok .help => { code := 0, output := helpText }
  | .ok .version => { code := 0, output := versionText }
  | .ok (.solve file settings) =>
    match settings.options.bind fun options =>
        solveFound memory clock timing options file (find file) with
    | .error _ => .fault
    | .ok (.error error, _) => .unread file error
    | .ok (.ok status, output) => { code := status.code, output }

end Dpll.Console
