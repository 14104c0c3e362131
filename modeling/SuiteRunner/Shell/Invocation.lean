import SuiteRunner.Shell.Builtin

/-!
# Invoking utilities

How a utility is connected to the descriptors of its process, and the utilities that are
about time. Also what a shell does around the commands that it runs.
-/

namespace SuiteRunner.Shell

open Files

/-- Whether a utility reads its input when it has these arguments. -/
def readsInput (name : String) (arguments : List String) : Bool :=
  let operands := arguments.filter (!isOption ·)
  match name with
  | "tr" | "tee" => true
  | "grep" | "egrep" | "fgrep" => operands.length < 2 || arguments.contains "-"
  | "cat" | "wc" | "sort" | "uniq" => operands.isEmpty || arguments.contains "-"
  | "head" | "tail" => operands.all (fun text => text.all Char.isDigit) || arguments.contains "-"
  | "dd" => !arguments.any (·.startsWith "if=")
  | _ => false

/-- Run a utility that takes no time. -/
def runUtility (name : String) (utility : Call → Answer) (arguments : List String)
    (state : State) : Flow × State :=
  let process := state.process
  let input := if readsInput name arguments then process.target 0 else none
  match state.machine.drain input with
  | none => state.stop
  | some (input, machine) =>
    let tree := process.treeOf machine
    let answer := utility { arguments, input, env := process.environment, tree }
    let tree := { answer.tree with workingDirectory := machine.tree.workingDirectory }
    let machine := ({ machine with tree }).write (process.target 1) answer.output
    let machine := machine.write (process.target 2) (Text.toBytes answer.errors)
    ({ process, machine } : State).finish answer.status

def sleep (arguments : List String) (state : State) : Flow × State :=
  if arguments.contains "infinity" then state.stop
  else
    match arguments.mapM span? with
    | some spans =>
      match state.machine.waitUntil (state.machine.clock + spans.foldl (· + ·) 0) with
      | some machine => ({ state with machine } : State).finish 0
      | none => state.stop
    | none =>
      let machine := state.machine.write (state.process.target 2)
        (Text.toBytes "sleep: invalid time interval\n")
      ({ state with machine } : State).finish 1

/-- Write a line over and over, until nobody reads any more. -/
def yes (arguments : List String) (state : State) : Flow × State :=
  let line := if arguments.isEmpty then "y\n" else " ".intercalate arguments ++ "\n"
  let block := (List.range 12).foldl (fun (bytes : ByteArray) _ => bytes ++ bytes)
    (Text.toBytes line)
  let blocks := (List.range (plenty / block.size + 1)).foldl (fun bytes _ => bytes ++ block) .empty
  let target := state.process.target 1
  let state := { state with machine := state.machine.write target blocks }
  match target with
  | some (.stream index) => if index < 2 then state.stop else state.finish 0
  | _ => state.stop

/-- The utilities that a shell has itself. -/
def ownUtilities : List String := ["echo", "printf", "test", "[", "true", "false", "pwd"]

/-- The settings in front of a program's name, and the rest. -/
def leadingAssignments : List String → List String × List String
  | [] => ([], [])
  | word :: words =>
    match cutAssignment word with
    | (_, some _) =>
      let (settings, rest) := leadingAssignments words
      (word :: settings, rest)
    | (_, none) => ([], word :: words)

/-- A shell that is started with an environment. -/
def childProcess (parent : Process) (name : String) (arguments : List String) : Process :=
  let vars := parent.environment.filter fun (name, _) => name != "PWD"
  { name, id := parent.id, directory := parent.directory
    vars := ("PWD", parent.directory.path.text) :: vars
    exported := "PWD" :: vars.map (·.1)
    arguments, descriptors := parent.descriptors, traps := parent.copy.traps }

/-- Show a command before it is run, if the shell does so. -/
def State.trace (state : State) (names words : List String) : State :=
  if state.process.traces then
    let settings := names.map fun name => name ++ "=" ++ (state.process.get? name).getD ""
    let line := " ".intercalate ("+" :: settings ++ words) ++ "\n"
    { state with machine := state.machine.write (state.process.target 2) (Text.toBytes line) }
  else state

/-- Stop the shell if a command that nobody checks has failed. -/
def checked (guarded : Bool) (result : Flow × State) : Flow × State :=
  match result with
  | (.next, state) =>
    if !guarded && state.process.stopsOnFailure && state.process.status != 0 then (.leave, state)
    else (.next, state)
  | result => result

end SuiteRunner.Shell
