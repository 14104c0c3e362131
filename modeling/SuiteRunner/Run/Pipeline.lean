import SuiteRunner.Files.Tree
import SuiteRunner.Run.Capture
import SuiteRunner.Run.Result

/-!
# Pipelines

The commands of one test, run one after the other by a host. A pipeline ends early when a
command is stopped, by the deadline that all its commands share or by the kill switch,
and when a command fails whose failure propagates. Whatever was run is reported, in
order.
-/

namespace SuiteRunner.Run

open Files

/-- One command, substituted. -/
structure Command where
  text : String
  /-- Whether its failure fails the test and ends the pipeline. -/
  propagates : Bool
  deriving DecidableEq, Repr

/-- Everything that is needed to run the commands of one test. -/
structure Request where
  commands : List Command
  /-- A program and its first arguments; the text of a command is the last argument. -/
  shell : List String
  directory : Path
  env : List (String × String)
  timeout : Option Duration
  deriving DecidableEq, Repr

inductive Outcome where
  | passed
  | failed
  | timedOut
  | interrupted
  deriving DecidableEq, Repr

structure PipelineReport where
  outcome : Outcome
  runs : List CommandRecord
  deriving DecidableEq, Repr

/-- Why the commands could not be run at all. -/
inductive ExecError where
  | emptyShell
  | outputDirectory (path : Path) (cause : Failure)
  | spawn (program : String) (cause : Failure)
  | wait (command : String) (cause : Failure)
  deriving DecidableEq, Repr

def ExecError.message : ExecError → String
  | emptyShell => "shell command line is empty"
  | outputDirectory path cause =>
    "cannot create output directory " ++ path.shown ++ ": " ++ cause.message
  | spawn program cause => "failed to spawn `" ++ program ++ "`: " ++ cause.message
  | wait command cause => "failed waiting for `" ++ command ++ "`: " ++ cause.message

/-- What came of a request. -/
inductive Attempt where
  | reported (report : PipelineReport)
  | refused (error : ExecError)
  /-- The worker that made the request did not survive it. -/
  | lost
  deriving DecidableEq, Repr

/-! ### Hosts -/

/-- A time since the host was started. -/
abbrev Instant : Type := Duration

/-- The latest second that an instant can have. -/
def latestSecond : Nat := Nat.pow 2 63 - 1

/-- The instant that comes `span` after `start`, if there is one. -/
def Instant.after? (start : Instant) (span : Duration) : Option Instant :=
  let nanos := start.nanos + span.nanos
  if nanos / Duration.nanosPerSecond ≤ latestSecond then some ⟨nanos⟩ else none

/-- A program that a host is to start. -/
structure Launch where
  program : String
  arguments : List String
  directory : Path
  env : List (String × String)
  deadline : Option Instant
  deriving DecidableEq, Repr

/-- How a command came to its end. -/
inductive Ending where
  /-- By itself, with an exit code unless a signal ended it. -/
  | exited (code : Option Int)
  | expired
  | killed
  deriving DecidableEq, Repr

structure Ended where
  ending : Ending
  stdout : Stream
  stderr : Stream

/-- What starting a program can come to. -/
inductive Launched where
  | notStarted (cause : Failure)
  | notWaitedFor (cause : Failure)
  | ended (ended : Ended)

/-- What runs the commands; `σ` is its state. -/
structure Host (σ : Type) where
  now : σ → Instant
  killRequested : σ → Bool
  makeDirectories : Path → σ → Except Failure σ
  launch : Launch → σ → Launched × σ

/-! ### Running -/

def Ending.exitCode : Ending → Option Int
  | exited code => code
  | expired | killed => none

def Ended.record (ended : Ended) (command : String) : CommandRecord :=
  { command, exitCode := ended.ending.exitCode, stdout := ended.stdout.capture.text,
    stderr := ended.stderr.capture.text }

/-- Whether a command that ended by itself fails the test. -/
def Command.fails (command : Command) (code : Option Int) : Bool :=
  code != some 0 && command.propagates

/-- The launch of one command of a request. -/
def Launch.ofCommand (launch : Launch) (command : Command) : Launch :=
  { launch with arguments := launch.arguments ++ [command.text] }

namespace Host

variable {σ : Type}

/-- Run commands; `launch` has all that they share. -/
def runCommands (host : Host σ) (launch : Launch) :
    List Command → σ → Except ExecError PipelineReport × σ
  | [], world => (.ok ⟨.passed, []⟩, world)
  | command :: commands, world =>
    if host.killRequested world then (.ok ⟨.interrupted, []⟩, world)
    else
      match host.launch (launch.ofCommand command) world with
      | (.notStarted cause, world) => (.error (.spawn launch.program cause), world)
      | (.notWaitedFor cause, world) => (.error (.wait command.text cause), world)
      | (.ended ended, world) =>
        let record := ended.record command.text
        match ended.ending with
        | .expired => (.ok ⟨.timedOut, [record]⟩, world)
        | .killed => (.ok ⟨.interrupted, [record]⟩, world)
        | .exited code =>
          if command.fails code then (.ok ⟨.failed, [record]⟩, world)
          else
            let (rest, world) := host.runCommands launch commands world
            (rest.map fun report => { report with runs := record :: report.runs }, world)

/-- The deadline of a request that is started now, or nothing if no instant is that late. -/
def deadline? (host : Host σ) (timeout : Option Duration) (world : σ) :
    Option (Option Instant) :=
  match timeout with
  | none => some none
  | some timeout => ((host.now world).after? timeout).map some

/-- Run the commands of a request in its directory, which is made first. -/
def pipeline (host : Host σ) (request : Request) (world : σ) : Attempt × σ :=
  match request.shell with
  | [] => (.refused .emptyShell, world)
  | program :: arguments =>
    match host.makeDirectories request.directory world with
    | .error cause => (.refused (.outputDirectory request.directory cause), world)
    | .ok world =>
      match host.deadline? request.timeout world with
      | none => (.lost, world)
      | some deadline =>
        let launch : Launch :=
          { program, arguments, directory := request.directory, env := request.env, deadline }
        match host.runCommands launch request.commands world with
        | (.error error, world) => (.refused error, world)
        | (.ok report, world) => (.reported report, world)

end Host

end SuiteRunner.Run
