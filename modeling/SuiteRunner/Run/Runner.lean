import SuiteRunner.Run.Evaluation
import SuiteRunner.Run.Report
import SuiteRunner.Run.Schedule

/-!
# Running a list of tests

A run goes in rounds. In each round every free worker takes a test if it may, then the
listener hears of everything that was told to it, then the workers evaluate the tests
they have taken. So a worker is already busy with its next test when its last result is
heard. Every round moves the cursor or finds all workers gone, so there are no more
rounds than tests, and one in which the workers leave.
-/

namespace SuiteRunner.Run

open Discovery

structure Options where
  workers : Nat := 1
  /-- A timeout in seconds that counts before that of the configuration. -/
  timeout : Option UInt64 := none
  /-- The run is stopped after this many failures. -/
  maxFailures : Option Nat := none
  deriving DecidableEq, Repr

namespace Runner

variable {σ : Type}

/-- Every free worker takes a test, if the flag is down and there is one. -/
def takeTests (limit : Option Nat) (state : State) : State :=
  (List.range state.workers.length).foldl (fun state worker =>
    (state.apply limit (.look worker)).apply limit (.claim worker)) state

/-- The listener hears of everything that was told to it. -/
def hearAll (limit : Option Nat) (state : State) : State :=
  state.channel.foldl (fun state _ => state.apply limit .hear) state

/-- A worker evaluates the test that it has taken and tells the result. -/
def work (executor : Executor σ) (options : Options) (tests : List TestCase) (worker : Nat)
    (state : State) (world : σ) : State × σ :=
  let limit := options.maxFailures
  match state.workers[worker]? with
  | some (.busy index) =>
    match tests[index]? with
    | none => (state, world)
    | some test =>
      match evaluate executor options.timeout test world with
      | (some result, world) =>
        ((state.apply limit (.store worker result)).apply limit (.tell worker), world)
      | (none, world) => (state.apply limit (.lose worker), world)
  | _ => (state, world)

def workAll (executor : Executor σ) (options : Options) (tests : List TestCase) (state : State)
    (world : σ) : State × σ :=
  (List.range state.workers.length).foldl (fun (state, world) worker =>
    work executor options tests worker state world) (state, world)

/-- The flag goes up if somebody wants the run to stop. -/
def watch (executor : Executor σ) (limit : Option Nat) (state : State) (world : σ) : State :=
  if executor.aborted world then state.apply limit .abort else state

def round (executor : Executor σ) (options : Options) (tests : List TestCase) (state : State)
    (world : σ) : State × σ :=
  let limit := options.maxFailures
  let state := hearAll limit (takeTests limit (watch executor limit state world))
  workAll executor options tests state world

def rounds (executor : Executor σ) (options : Options) (tests : List TestCase) :
    (count : Nat) → State → σ → State × σ
  | 0, state, world => (state, world)
  | count + 1, state, world =>
    let (state, world) := round executor options tests state world
    rounds executor options tests count state world

end Runner

/-- What a run reported, in this order. -/
structure RunRecord where
  total : Nat
  reported : List (String × TestResult)
  deriving DecidableEq, Repr

namespace RunRecord

def summary (run : RunRecord) (duration : Duration) : Summary :=
  .ofKinds (run.reported.map fun (_, result) => result.kind) duration

/-- Everything that a reporter hears of a run. -/
def events (run : RunRecord) (duration : Duration) : List Event :=
  .collected run.total ::
    run.reported.map (fun (name, result) => .tested name result) ++
      [.finished (run.summary duration)]

/-- The run as it would have been if every test had taken this long. -/
def withElapsed (run : RunRecord) (elapsed : Duration) : RunRecord :=
  { run with reported := run.reported.map fun (name, result) => (name, { result with elapsed }) }

/-- Everything that a reporter prints of a run. -/
def text (run : RunRecord) (reporter : Reporter) (duration : Duration) : String :=
  String.join (reporter.hearAll (run.events duration))

end RunRecord

/-- Run tests and report what each of them comes to. -/
def runTests {σ : Type} (executor : Executor σ) (options : Options) (tests : List TestCase)
    (world : σ) : RunRecord × σ :=
  let start := State.initial options.workers tests.length
  let (state, world) := Runner.rounds executor options tests (tests.length + 1) start world
  let final := (Runner.hearAll options.maxFailures state).close
  let reported := final.reported.filterMap fun (index, result) =>
    tests[index]?.map fun test => (test.name, result)
  (⟨tests.length, reported⟩, world)

end SuiteRunner.Run
