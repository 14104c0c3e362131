import SuiteRunner.Run.Evaluation
import SuiteRunner.Shell.Evaluation

/-!
# A host for pipelines

A world of files and time in which the commands of a test are run. The clock goes on only
while a command waits. A command that is still waiting when its deadline is reached, or
when the kill switch is thrown, is stopped there, and what it would have done later never
happens.
-/

namespace SuiteRunner.Shell

open Files Run

structure World where
  tree : FileTree
  /-- Nanoseconds since the world began, which was some time ago. -/
  clock : Nat := Duration.nanosPerSecond
  /-- The time at which the kill switch is thrown. -/
  killAt : Option Nat := none

/-- The earlier of two times, either of which may never come. -/
def earlier : Option Nat → Option Nat → Option Nat
  | some a, some b => some (min a b)
  | some a, none => some a
  | none, b => b

/-- The most bytes of one argument or one variable, with the byte that ends it. -/
def argumentLimit : Nat := 128 * 1024

/-- What is handed over to a program. -/
def handedOver (launch : Launch) : List String :=
  launch.program :: launch.arguments ++ launch.env.map fun (name, value) => name ++ "=" ++ value

def searchPathOf (launch : Launch) : String :=
  (launch.env.lookup "PATH").getD defaultSearchPath

/-- The tree as the program of a launch sees it, if the program can be started. -/
def enterFor (launch : Launch) (tree : FileTree) : Except Failure FileTree := do
  let texts := handedOver launch
  if texts.any (·.toList.contains '\x00') then throw .nulInArgument
  let tree ← tree.enter launch.directory
  if texts.any (argumentLimit ≤ ·.utf8ByteSize) then throw .argumentTooLong
  match ← findProgram tree (Text.pack (searchPathOf launch)) (Text.pack launch.program) with
  | .script _ [] => throw .notAProgram
  | .script _ (interpreter :: _) =>
    let _ ← programAt tree ⟨interpreter⟩
    return tree
  | .utility _ | .shell => return tree

/-- The process that a launch starts, in this directory. -/
def processOf (launch : Launch) (directory : Place) : Process :=
  let env := ("PATH", searchPathOf launch) :: launch.env.filter fun (name, _) => name != "PATH"
  let vars := env.map fun (name, value) => (Text.pack name, Text.pack value)
  { name := Text.pack launch.program, id := 1, directory, vars, exported := vars.map (·.1)
    descriptors := [(0, .sink), (1, .stream 0), (2, .stream 1)] }

/-- How a command ended; nothing if it was stopped. -/
def exitCode? (flow : Flow) (status : Nat) : Option (Option Int) :=
  match flow with
  | .stopped => none
  | .signaled _ _ => some none
  | _ => some (some status)

/-- Run a program until it has ended and nobody holds its streams any more. -/
def runToEnd (launch : Launch) (directory : Place) (machine : Machine) :
    Option (Option Int) × Machine :=
  if machine.stopAt.any (· ≤ machine.clock) then (none, machine)
  else
    let (flow, state) :=
      execute patience (Text.pack launch.program) (launch.arguments.map Text.pack)
        ⟨processOf launch directory, machine⟩
    match exitCode? flow state.process.status with
    | none => (none, state.machine)
    | some code =>
      match state.machine.waitForHolders [0, 1] with
      | some machine => (some code, machine)
      | none => (none, state.machine.stopped)

def World.launch (launch : Launch) (world : World) : Launched × World :=
  match enterFor launch world.tree with
  | .error cause => (.notStarted cause, world)
  | .ok entered =>
    let deadline := launch.deadline.map (·.nanos)
    let machine : Machine :=
      { tree := world.tree, clock := world.clock, stopAt := earlier deadline world.killAt
        streams := #[[], []] }
    let (code?, after) := runToEnd launch entered.workingDirectory machine
    let ending : Ending := match code?, deadline with
      | some code, _ => .exited code
      | none, some deadline => if world.killAt.all (deadline ≤ ·) then .expired else .killed
      | none, none => .killed
    let stream (index : Nat) : Stream :=
      { live := (after.contentUntil index machine.stopAt).map .chunk }
    (.ended { ending, stdout := stream 0, stderr := stream 1 },
      { world with tree := after.tree, clock := after.clock })

def host : Host World where
  now world := ⟨world.clock⟩
  killRequested world := world.killAt.any (· ≤ world.clock)
  makeDirectories path world :=
    (world.tree.makeDirectories path).map fun tree => { world with tree }
  launch launch world := world.launch launch

/-- Let the kill switch of a world be thrown after some time. -/
def World.killedAfter (world : World) (span : Duration) : World :=
  { world with killAt := some (world.clock + span.nanos) }

/-- The executor that runs commands in a world. -/
def executor : Executor World where
  files world := world.tree
  run := host.pipeline
  aborted _ := false

end SuiteRunner.Shell
