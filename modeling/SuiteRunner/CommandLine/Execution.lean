import SuiteRunner.CommandLine.Arguments
import SuiteRunner.Config.Load
import SuiteRunner.Config.Record
import SuiteRunner.Discovery.Walk

/-!
# Carrying out a command line

A command line either shows the configuration of a suite or runs its tests. If anything is
wrong with the configuration, nothing is run and nothing is printed. Otherwise the exit
code tells whether all tests succeeded.
-/

namespace SuiteRunner.CommandLine

open Files

def programName : String := "litmus"

/-- The exit code if nothing could be run. -/
def configurationFault : Nat := 2

/-- What a command line comes to. -/
structure Ending where
  /-- Nothing if the program goes on for ever. -/
  exitCode : Option Nat
  stdout : String := ""
  stderr : String := ""
  deriving DecidableEq, Repr

def Ending.ofError : Config.Error → Ending
  | .endless _ => { exitCode := none }
  | error => { exitCode := some configurationFault, stderr := error.message ++ "\n" }

def Refusal.message : Refusal → String
  | unknownArgument => "unexpected argument"
  | invalidValue => "a value is missing or not one of those possible"
  | unreadableValue => "a value cannot be read"
  | repeated => "an option is given twice"
  | unwantedValue => "a value for an option that takes none"
  | help | version => ""

def usage : String := "Usage: " ++ programName ++ " [OPTIONS] [TEST_PATH]...\n"

/-- What is said to arguments that are not carried out. -/
def Refusal.ending (refusal : Refusal) : Ending :=
  match refusal with
  | help => { exitCode := some refusal.exitCode, stdout := usage }
  | version =>
    { exitCode := some refusal.exitCode, stdout := programName ++ " " ++ Run.version ++ "\n" }
  | _ =>
    { exitCode := some refusal.exitCode, stderr := "error: " ++ refusal.message ++ "\n\n" ++ usage }

namespace Arguments

/-- The layer file to start from: the one that is named, or else the nearest one above the
first path, or above the working directory. -/
def entryLayer (arguments : Arguments) (tree : FileTree) : Except Config.Error Path :=
  match arguments.config with
  | some file => .ok file
  | none => Config.findEntryLayer tree (arguments.paths.head?.getD tree.workingDirectory.path)

/-- The cascade of a suite, and the scope to start from. -/
def load (arguments : Arguments) (tree : FileTree) :
    Except Config.Error (Config.Cascade × Path) := do
  let file ← arguments.entryLayer tree
  let (cascade, loaded) := ({} : Config.Cascade).load tree file
  return (cascade, ← loaded)

/-- The configuration of a suite. -/
def configuration (arguments : Arguments) (tree : FileTree) :
    Except Config.Error Config.EffectiveConfig := do
  let (cascade, entry) ← arguments.load tree
  cascade.resolve entry

/-- The tests that are selected. -/
def tests (arguments : Arguments) (tree : FileTree) :
    Except Config.Error (List Discovery.TestCase) := do
  let (cascade, entry) ← arguments.load tree
  let selection ← Discovery.Selection.ofPaths tree arguments.paths arguments.filter
  Discovery.discover tree cascade entry selection

end Arguments

/-- Where a command line is carried out. -/
structure Setting (σ : Type) where
  executor : Run.Executor σ
  cores : Nat := 1
  /-- Whether the report may be colored. -/
  color : Bool := false

variable {σ : Type}

/-- Run the selected tests. -/
def runSuite (setting : Setting σ) (arguments : Arguments) (world : σ) : Ending × σ :=
  match arguments.tests (setting.executor.files world) with
  | .error error => (.ofError error, world)
  | .ok tests =>
    let (run, world) :=
      Run.runTests setting.executor (arguments.options setting.cores) tests world
    let stdout := run.text (arguments.reporter setting.color) .zero
    ({ exitCode := some ((run.summary .zero).exitCode false), stdout }, world)

/-- Show a configuration, unless it cannot be written down. -/
def showConfiguration (config : Config.EffectiveConfig) : Ending :=
  if config.isWritable then { exitCode := some 0, stdout := Json.wide 0 config.record ++ "\n" }
  else
    { exitCode := some 1,
      stderr := "cannot serialize configuration: path contains invalid UTF-8 characters\n" }

/-- Carry out arguments that were accepted. -/
def carryOut (setting : Setting σ) (arguments : Arguments) (world : σ) : Ending × σ :=
  if arguments.showConfig then
    match arguments.configuration (setting.executor.files world) with
    | .ok config => (showConfiguration config, world)
    | .error error => (.ofError error, world)
  else runSuite setting arguments world

/-- Read arguments, the first of which is the name of the program, and carry them out. -/
def carryOutAll (setting : Setting σ) (arguments : List String) (world : σ) : Ending × σ :=
  match Arguments.parse arguments with
  | .ok arguments => carryOut setting arguments world
  | .error refusal => (refusal.ending, world)

end SuiteRunner.CommandLine
