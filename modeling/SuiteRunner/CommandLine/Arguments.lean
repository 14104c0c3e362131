import SuiteRunner.Path.Basic
import SuiteRunner.Run.Runner

/-!
# Arguments of the command line

Arguments are read from left to right. An option that takes a value takes it from the same
argument or from the next one, and its value is judged only when reading goes on behind
it; that is why an unknown option is refused before a bad value in front of it. Behind
`--` everything is a path.
-/

namespace SuiteRunner.CommandLine

inductive OutputFormat where
  | human
  | machine
  deriving DecidableEq, Repr

structure Arguments where
  paths : List Path := []
  /-- The layer file to start from. -/
  config : Option Path := none
  workers : Option Nat := none
  timeout : Option UInt64 := none
  filter : Option String := none
  output : Option OutputFormat := none
  maxFailures : Option Nat := none
  /-- How often more was asked to be shown. -/
  verbosity : Nat := 0
  showConfig : Bool := false
  deriving DecidableEq, Repr

/-- Why arguments are not carried out. -/
inductive Refusal where
  | unknownArgument
  /-- A value that is missing, empty or not one of those possible. -/
  | invalidValue
  /-- A value that cannot be read. -/
  | unreadableValue
  /-- An option that may be given only once. -/
  | repeated
  /-- A value for an option that takes none. -/
  | unwantedValue
  | help
  | version
  deriving DecidableEq, Repr

/-- The exit code with which arguments are refused. -/
def Refusal.exitCode : Refusal → Nat
  | help | version => 0
  | _ => 2

/-! ### Options -/

/-- The options that take a value. -/
inductive ValueOption where
  | config
  | workers
  | timeout
  | filter
  | output
  | maxFailures
  deriving DecidableEq, Repr

/-- The options that take none. -/
inductive Flag where
  | verbose
  | showConfig
  | help
  | version
  deriving DecidableEq, Repr

inductive Choice where
  | valued (option : ValueOption)
  | flag (flag : Flag)
  deriving DecidableEq, Repr

def Choice.ofName? : String → Option Choice
  | "config" => some (.valued .config)
  | "workers" => some (.valued .workers)
  | "timeout" => some (.valued .timeout)
  | "filter" => some (.valued .filter)
  | "output" => some (.valued .output)
  | "max-failures" => some (.valued .maxFailures)
  | "verbose" => some (.flag .verbose)
  | "show-config" => some (.flag .showConfig)
  | "help" => some (.flag .help)
  | "version" => some (.flag .version)
  | _ => none

def Choice.ofLetter? : Char → Option Choice
  | 'j' => some (.valued .workers)
  | 'v' => some (.flag .verbose)
  | 'h' => some (.flag .help)
  | 'V' => some (.flag .version)
  | _ => none

/-! ### Values -/

def digit? (c : Char) : Option Nat := if c.isDigit then some (c.toNat - '0'.toNat) else none

def decimal? : List Char → Option Nat
  | [] => none
  | digits => digits.foldl (fun sofar c => do return (← sofar) * 10 + (← digit? c)) (some 0)

/-- A number that fits into 64 bits; a plus sign may stand in front of it. -/
def word? (text : String) : Option Nat :=
  let digits := match text.toList with
    | '+' :: digits => digits
    | digits => digits
  (decimal? digits).filter (· < UInt64.size)

/-- A number of at least one. -/
def count (text : String) : Except Refusal Nat :=
  match (word? text).filter (0 < ·) with
  | some n => .ok n
  | none => .error .unreadableValue

def seconds (text : String) : Except Refusal UInt64 :=
  match word? text with
  | some n => .ok (UInt64.ofNat n)
  | none => .error .unreadableValue

def path (text : String) : Except Refusal Path :=
  if text.isEmpty then .error .invalidValue else .ok (.ofText text)

def OutputFormat.ofText : String → Except Refusal OutputFormat
  | "human" => .ok .human
  | "machine" => .ok .machine
  | _ => .error .invalidValue

/-- The largest number of times that more can be asked to be shown. -/
def verbosityLimit : Nat := 255

namespace Arguments

/-- Whether an option has a value already. -/
def has (arguments : Arguments) : ValueOption → Bool
  | .config => arguments.config.isSome
  | .workers => arguments.workers.isSome
  | .timeout => arguments.timeout.isSome
  | .filter => arguments.filter.isSome
  | .output => arguments.output.isSome
  | .maxFailures => arguments.maxFailures.isSome

/-- Give an option its value. -/
def set (arguments : Arguments) (option : ValueOption) (value : String) :
    Except Refusal Arguments :=
  if arguments.has option then .error .repeated
  else
    match option with
    | .config => do return { arguments with config := some (← path value) }
    | .workers => do return { arguments with workers := some (← count value) }
    | .timeout => do return { arguments with timeout := some (← seconds value) }
    | .filter => .ok { arguments with filter := some value }
    | .output => do return { arguments with output := some (← OutputFormat.ofText value) }
    | .maxFailures => do return { arguments with maxFailures := some (← count value) }

def addPaths (arguments : Arguments) (texts : List String) : Except Refusal Arguments := do
  return { arguments with paths := arguments.paths ++ (← texts.mapM path) }

def raise (arguments : Arguments) : Flag → Except Refusal Arguments
  | .verbose =>
    .ok { arguments with verbosity := min verbosityLimit (arguments.verbosity + 1) }
  | .showConfig =>
    if arguments.showConfig then .error .repeated else .ok { arguments with showConfig := true }
  | .help => .error .help
  | .version => .error .version

end Arguments

/-! ### Reading -/

/-- What has been read and not been judged yet. -/
inductive Pending where
  | nothing
  | option (option : ValueOption) (value : Option String)
  | paths (texts : List String)
  deriving DecidableEq, Repr

structure Progress where
  arguments : Arguments := {}
  pending : Pending := .nothing
  deriving DecidableEq, Repr

namespace Progress

/-- Judge what is pending. -/
def resolve (progress : Progress) : Except Refusal Arguments :=
  match progress.pending with
  | .nothing => .ok progress.arguments
  | .option option (some value) => progress.arguments.set option value
  | .option _ none => .error .invalidValue
  | .paths texts => progress.arguments.addPaths texts

def raise (progress : Progress) (flag : Flag) : Except Refusal Progress := do
  return { arguments := ← (← progress.resolve).raise flag }

/-- An option together with the value that stands in the same argument. -/
def setAttached (progress : Progress) (option : ValueOption) (value : String) :
    Except Refusal Progress := do
  return { arguments := ← (← progress.resolve).set option value }

/-- An option whose value is to come. -/
def openOption (progress : Progress) (option : ValueOption) : Except Refusal Progress := do
  return { arguments := ← progress.resolve, pending := .option option none }

def addPath (progress : Progress) (text : String) : Except Refusal Progress :=
  match progress.pending with
  | .paths texts => .ok { progress with pending := .paths (texts ++ [text]) }
  | _ => do return { arguments := ← progress.resolve, pending := .paths [text] }

/-- An argument that is no option: the value that is due, or else a path. -/
def readPlain (progress : Progress) (text : String) : Except Refusal Progress :=
  match progress.pending with
  | .option option none => .ok { progress with pending := .option option (some text) }
  | _ => progress.addPath text

/-- The name and the value of a long option. -/
def cutValue (text : List Char) : String × Option String :=
  let name := text.takeWhile (· != '=')
  match text.drop name.length with
  | [] => (String.ofList name, none)
  | _ :: value => (String.ofList name, some (String.ofList value))

def readLong (progress : Progress) (text : List Char) : Except Refusal Progress :=
  let (name, value) := cutValue text
  match Choice.ofName? name, value with
  | none, _ => .error .unknownArgument
  | some (.flag flag), none => progress.raise flag
  | some (.flag _), some _ => .error .unwantedValue
  | some (.valued option), none => progress.openOption option
  | some (.valued option), some value => progress.setAttached option value

/-- The letters of an argument with one dash; an option takes what is left as its value. -/
def readLetters (progress : Progress) : List Char → Except Refusal Progress
  | [] => .ok progress
  | letter :: rest =>
    match Choice.ofLetter? letter with
    | none => .error .unknownArgument
    | some (.flag flag) => do (← progress.raise flag).readLetters rest
    | some (.valued option) =>
      match rest with
      | [] => progress.openOption option
      | '=' :: value => progress.setAttached option (String.ofList value)
      | value => progress.setAttached option (String.ofList value)

def read (progress : Progress) (argument : String) : Except Refusal Progress :=
  match argument.toList with
  | '-' :: '-' :: text => progress.readLong text
  | '-' :: letter :: letters => progress.readLetters (letter :: letters)
  | _ => progress.readPlain argument

def readAll (progress : Progress) : List String → Except Refusal Progress
  | [] => .ok progress
  | "--" :: texts => texts.foldlM addPath progress
  | argument :: rest => do (← progress.read argument).readAll rest

end Progress

/-- Read the arguments of a program, the first of which is its name. -/
def Arguments.parse (arguments : List String) : Except Refusal Arguments := do
  (← ({} : Progress).readAll arguments.tail).resolve

namespace Arguments

/-- How much is logged: the more was asked to be shown, the more. -/
def logFilter (arguments : Arguments) : String :=
  match arguments.verbosity with
  | 0 => "warn"
  | 1 => "info"
  | _ => "debug"

def verbose (arguments : Arguments) : Bool := 0 < arguments.verbosity

/-- How the tests are to be run on a machine with this many cores. -/
def options (arguments : Arguments) (cores : Nat) : Run.Options :=
  { workers := arguments.workers.getD cores
    timeout := arguments.timeout
    maxFailures := arguments.maxFailures }

/-- The reporter that was asked for, on a terminal with or without color. -/
def reporter (arguments : Arguments) (color : Bool) : Run.Reporter :=
  match arguments.output.getD .human with
  | .human => .console { verbose := arguments.verbose, color }
  | .machine => .machine

end Arguments

end SuiteRunner.CommandLine
