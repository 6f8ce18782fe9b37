import Dpll.Console.Run

/-!
# The program

The outer layer of the program: it reads the named file and the clock, and prints. What is printed
and when a search stops is decided elsewhere.
-/

set_option autoImplicit false

namespace Dpll.Console

def foundOf (error : IO.Error) : Files.Found :=
  match error with
  | .noFileOrDirectory .. => .absent .missing
  | .permissionDenied .. => .absent .notPermitted
  | .invalidArgument .. => .absent .nameTooLong
  | .inappropriateType _ 21 _ => .directory
  | .inappropriateType .. => .absent .notDirectory
  | _ => .directory

def findFile (name : String) : IO Files.Found := do
  try
    return .file (← IO.FS.readBinFile name)
  catch error => return foundOf error

def flushProgress (solver : Solver) : IO Solver := do
  if solver.journal.progress.isEmpty then return solver
  IO.print (Report.progressLines solver.journal)
  return { solver with journal := solver.journal.cleared }

partial def searchFrom (start : Nat) (solver : Solver) : IO (Except Fault (Status × Solver)) := do
  match solver.step ((← IO.monoNanosNow) - start) with
  | .error fault => return .error fault
  | .ok (.finished status solver) => return .ok (status, ← flushProgress solver)
  | .ok (.continued solver) => searchFrom start (← flushProgress solver)

def searchAll (solver : Solver) : IO (Except Fault (Status × Solver)) := do
  let start ← IO.monoNanosNow
  match solver.trail.checkUndo 0 *> solver.restart.begin with
  | .error fault => return .error fault
  | .ok (.finished status solver) => return .ok (status, solver)
  | .ok (.continued solver) => searchFrom start solver

def leave (exit : Exit) : IO UInt32 := do
  IO.print exit.output
  IO.eprint exit.errors
  return exit.code.toUInt32

def solveFile (options : Options) (file : String) : IO UInt32 := do
  let start ← IO.monoNanosNow
  let found ← findFile file
  match load .addressable options file found with
  | .error _ => leave .fault
  | .ok (.error error) => leave (.unread file error)
  | .ok (.ok solver) =>
    IO.print (Report.before solver (((← IO.monoNanosNow) - start) / 1000))
    match ← searchAll solver with
    | .error _ => leave .fault
    | .ok (status, solver) =>
      let total := ((← IO.monoNanosNow) - start) / 1000
      leave { code := status.code, output := Report.after solver status total }

end Dpll.Console

open Dpll.Console in
def main (arguments : List String) : IO UInt32 := do
  match readArguments {} arguments with
  | .error error => leave (.usage error)
  | .ok .help => leave { code := 0, output := helpText }
  | .ok .version => leave { code := 0, output := versionText }
  | .ok (.solve file settings) =>
    match settings.options with
    | .error _ => leave .fault
    | .ok options => solveFile options file
