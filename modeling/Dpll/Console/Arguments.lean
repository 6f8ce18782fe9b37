import Dpll.Engine.Fault
import Dpll.Engine.Solver
import Dpll.Text.Binary64

/-!
# Command line arguments

Arguments are read from the first to the last. Options may stand anywhere before `--`, each at most
once. A request for help or for the version is granted as soon as it is read, whatever follows it.
-/

set_option autoImplicit false

namespace Dpll.Console

inductive UsageError where
  | unknown (argument : String)
  | repeated (option : String)
  | noValue (option : String)
  | badValue (option value : String)
  | noFile
deriving DecidableEq

def UsageError.message : UsageError → String
  | unknown argument => s!"unexpected argument '{argument}'"
  | repeated option => s!"the argument '{option}' cannot be used twice"
  | noValue option => s!"a value is required for '{option}'"
  | badValue option value => s!"invalid value '{value}' for '{option}'"
  | noFile => "a file is required"

structure Settings where
  file : Option String := none
  quiet : Bool := false
  decisionLimit : Option Nat := none
  timeLimit : Option Text.Binary64 := none
deriving DecidableEq

inductive Request where
  | help
  | version
  | solve (file : String) (settings : Settings)
deriving DecidableEq

/-- What an argument leads to: more settings, or a request that is granted at once. -/
inductive Progression where
  | next (settings : Settings)
  | grant (request : Request)
deriving DecidableEq

def setFile (settings : Settings) (name : String) : Except UsageError Settings :=
  if name.isEmpty then .error (.badValue "<FILE>" name)
  else if settings.file.isSome then .error (.unknown name)
  else .ok { settings with file := some name }

def setQuiet (settings : Settings) : Except UsageError Settings :=
  if settings.quiet then .error (.repeated "--quiet") else .ok { settings with quiet := true }

inductive Valued where
  | decisionLimit
  | timeLimit
deriving DecidableEq

def Valued.name : Valued → String
  | decisionLimit => "--decision-limit"
  | timeLimit => "--time-limit"

def Valued.set (option : Valued) (settings : Settings) (value : String) :
    Except UsageError Settings :=
  match option with
  | decisionLimit =>
    match settings.decisionLimit, Text.unsigned? value.toList with
    | some _, _ => .error (.repeated option.name)
    | none, none => .error (.badValue option.name value)
    | none, some limit => .ok { settings with decisionLimit := some limit }
  | timeLimit =>
    match settings.timeLimit, Text.binary64? value.toList with
    | some _, _ => .error (.repeated option.name)
    | none, none => .error (.badValue option.name value)
    | none, some limit => .ok { settings with timeLimit := some limit }

def readLetters (settings : Settings) : List Char → Except UsageError Progression
  | [] => .ok (.next settings)
  | 'h' :: _ => .ok (.grant .help)
  | 'V' :: _ => .ok (.grant .version)
  | 'q' :: rest => do readLetters (← setQuiet settings) rest
  | letter :: _ => .error (.unknown (String.ofList ['-', letter]))

/-- The shape of an argument: a name, two dashes after which only names follow, a dash and letters,
or two dashes and a word, with or without a value. -/
inductive Shape where
  | name
  | divider
  | letters (letters : List Char)
  | word (word : String)
  | assignment (word value : String)
deriving DecidableEq

/-- The shape of an argument; a single dash is a name. -/
def shapeOf (argument : String) : Shape :=
  match argument.toList with
  | ['-', '-'] => .divider
  | '-' :: '-' :: rest =>
    let word := String.ofList (rest.takeWhile (· ≠ '='))
    match rest.dropWhile (· ≠ '=') with
    | [] => .word word
    | _ :: value => .assignment word (String.ofList value)
  | '-' :: letter :: rest => .letters (letter :: rest)
  | _ => .name

def valued? : String → Option Valued
  | "decision-limit" => some .decisionLimit
  | "time-limit" => some .timeLimit
  | _ => none

def readWord (settings : Settings) : String → Except UsageError Progression
  | "help" => .ok (.grant .help)
  | "version" => .ok (.grant .version)
  | "quiet" => (setQuiet settings).map .next
  | word => .error (.unknown ("--" ++ word))

def requestOf (settings : Settings) : Except UsageError Request :=
  match settings.file with
  | none => .error .noFile
  | some file => .ok (.solve file settings)

def readNames (settings : Settings) : List String → Except UsageError Request
  | [] => requestOf settings
  | name :: rest => do readNames (← setFile settings name) rest

def readArguments (settings : Settings) : List String → Except UsageError Request
  | [] => requestOf settings
  | argument :: rest =>
    match shapeOf argument with
    | .divider => readNames settings rest
    | .name => do readArguments (← setFile settings argument) rest
    | .letters letters =>
      match readLetters settings letters with
      | .error error => .error error
      | .ok (.grant request) => .ok request
      | .ok (.next settings) => readArguments settings rest
    | .assignment word value =>
      match valued? word with
      | none => .error (.unknown argument)
      | some option => do readArguments (← option.set settings value) rest
    | .word word =>
      match valued? word with
      | none =>
        match readWord settings word with
        | .error error => .error error
        | .ok (.grant request) => .ok request
        | .ok (.next settings) => readArguments settings rest
      | some option =>
        match rest with
        | [] => .error (.noValue option.name)
        | value :: rest =>
          if shapeOf value = .name then do readArguments (← option.set settings value) rest
          else .error (.noValue option.name)

/-- The time limit in nanoseconds. A limit that is infinite, negative or no number is none, and
one of `2 ^ 64` seconds or more is a fault. -/
def timeLimitOf : Option Text.Binary64 → Except Fault (Option Nat)
  | some (.number negative (.finite mantissa exponent)) =>
    if negative ∧ mantissa ≠ 0 then .ok none
    else
      let limit := Text.nanoseconds mantissa exponent
      if limit < 18446744073709551616000000000 then .ok (some limit) else .error .timeLimitTooLong
  | _ => .ok none

def Settings.options (settings : Settings) : Except Fault Options := do
  return {
    verbose := !settings.quiet
    decisionLimit := settings.decisionLimit
    timeLimit := ← timeLimitOf settings.timeLimit }

end Dpll.Console
