import SuiteRunner.Run.Evaluation

/-!
# Scripted executors

An executor that starts no processes: a script says how a command ends by what text occurs
in it. With it everything around the execution of commands can be tried out.
-/

namespace SuiteRunner.Run

/-- How the commands end in which a text occurs. -/
structure ScriptEntry where
  contains : String := ""
  exitCode : Int := 0
  stdout : String := ""
  stderr : String := ""
  /-- Whether a signal ends the command. -/
  killed : Bool := false
  /-- The outcome with which the command ends the whole pipeline. -/
  outcome : Option Outcome := none
  refused : Bool := false
  /-- Whether somebody wants the run to stop while the command runs. -/
  raisesAbort : Bool := false

def ScriptEntry.record (entry : ScriptEntry) (command : String) : CommandRecord :=
  { command
    exitCode := if entry.killed || entry.outcome.isSome then none else some entry.exitCode
    stdout := entry.stdout
    stderr := entry.stderr }

namespace Script

/-- What a script has seen. -/
structure World where
  files : Files.FileTree := {}
  requests : List Request := []
  aborted : Bool := false

def entryFor (script : List ScriptEntry) (command : String) : ScriptEntry :=
  (script.find? fun entry => Text.occursIn entry.contains.toList command.toList).getD {}

/-- Run commands as the script says; `aborted` says whether the run is to stop already. -/
def runCommands (script : List ScriptEntry) (aborted : Bool) :
    List Command → Except ExecError PipelineReport × Bool
  | [] => (.ok ⟨.passed, []⟩, aborted)
  | command :: commands =>
    let entry := entryFor script command.text
    let aborted := aborted || entry.raisesAbort
    if entry.refused then (.error .emptyShell, aborted)
    else
      let record := entry.record command.text
      match entry.outcome with
      | some outcome => (.ok ⟨outcome, [record]⟩, aborted)
      | none =>
        if command.fails record.exitCode then (.ok ⟨.failed, [record]⟩, aborted)
        else
          let (rest, aborted) := runCommands script aborted commands
          (rest.map fun report => { report with runs := record :: report.runs }, aborted)

def executor (script : List ScriptEntry) : Executor World where
  files world := world.files
  aborted world := world.aborted
  run request world :=
    let (answer, aborted) := runCommands script world.aborted request.commands
    let world := { world with requests := world.requests ++ [request], aborted }
    match answer with
    | .ok report => (.reported report, world)
    | .error error => (.refused error, world)

end Script

end SuiteRunner.Run
