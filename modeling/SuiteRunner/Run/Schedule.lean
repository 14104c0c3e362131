import SuiteRunner.Run.Result

/-!
# Schedules

Several workers take tests from one list, each by moving a shared cursor, and store every
result in the place of its test. One listener hears of finished tests in the order in
which they are told to it. The flag `aborted` keeps workers from taking further tests; the
listener raises it when too many tests have failed, and anybody may raise it at any time.

A schedule is a sequence of moves, one move for everything that happens at once. Which
sequence is followed is not said here: `step?` says what each move does.
-/

namespace SuiteRunner.Run

/-- Where a worker is in its loop. -/
inductive Worker where
  | free
  /-- It found the flag down and is about to move the cursor. -/
  | cleared
  | busy (index : Nat)
  /-- It has stored a result and is about to tell the listener. -/
  | stored (index : Nat)
  | gone
  deriving DecidableEq, Repr

inductive Move where
  | look (worker : Nat)
  | claim (worker : Nat)
  | store (worker : Nat) (result : TestResult)
  /-- A worker does not survive the test it has taken. -/
  | lose (worker : Nat)
  | tell (worker : Nat)
  | hear
  | abort
  deriving DecidableEq, Repr

structure State where
  /-- The first test that nobody has taken, as long as there is one. -/
  cursor : Nat := 0
  workers : List Worker
  slots : List Slot
  /-- The tests told to the listener and not heard by it yet, the earliest first. -/
  channel : List Nat := []
  aborted : Bool := false
  failures : Nat := 0
  /-- Whether the run was stopped because too many tests had failed. -/
  stopped : Bool := false
  /-- What has been reported, in this order. -/
  reported : List (Nat × TestResult) := []
  deriving DecidableEq, Repr

namespace State

/-- No more workers than there are tests, and at least one. -/
def workerCount (wanted tests : Nat) : Nat := max 1 (min wanted (max tests 1))

def initial (wanted tests : Nat) : State :=
  { workers := List.replicate (workerCount wanted tests) .free
    slots := List.replicate tests none }

def setWorker (state : State) (worker : Nat) (phase : Worker) : State :=
  { state with workers := state.workers.set worker phase }

/-- The listener takes note of a result. -/
def note (limit : Option Nat) (index : Nat) (result : TestResult) (state : State) : State :=
  let state := { state with reported := state.reported ++ [(index, result)] }
  if result.kind.isFailure then
    let failures := state.failures + 1
    if limit.any (· ≤ failures) then { state with failures, stopped := true, aborted := true }
    else { state with failures }
  else state

/-- What a move makes of a state in which it is possible. At most `limit` failures are
tolerated. -/
def step? (limit : Option Nat) (state : State) : Move → Option State
  | .look worker =>
    match state.workers[worker]? with
    | some .free => some (state.setWorker worker (if state.aborted then .gone else .cleared))
    | _ => none
  | .claim worker =>
    match state.workers[worker]? with
    | some .cleared =>
      let phase : Worker :=
        if state.cursor < state.slots.length then .busy state.cursor else .gone
      some { state.setWorker worker phase with cursor := state.cursor + 1 }
    | _ => none
  | .store worker result =>
    match state.workers[worker]? with
    | some (.busy index) =>
      some { state.setWorker worker (.stored index) with
             slots := state.slots.modify index (Slot.store · result) }
    | _ => none
  | .lose worker =>
    match state.workers[worker]? with
    | some (.busy _) => some (state.setWorker worker .gone)
    | _ => none
  | .tell worker =>
    match state.workers[worker]? with
    | some (.stored index) =>
      some { state.setWorker worker .free with channel := state.channel ++ [index] }
    | _ => none
  | .hear =>
    match state.channel with
    | [] => none
    | index :: channel =>
      let state := { state with channel }
      match state.slots[index]? with
      | some (some result) => some (state.note limit index result)
      | _ => some state
  | .abort => some { state with aborted := true }

/-- Make a move if it is possible. -/
def apply (limit : Option Nat) (state : State) (move : Move) : State :=
  (state.step? limit move).getD state

/-- Whether no worker will do anything more and everything told has been heard. -/
def settled (state : State) : Bool := state.workers.all (· == .gone) && state.channel.isEmpty

/-! ### The end of a run -/

/-- Why the tests that are left have no result of their own. -/
def skipReason (state : State) : String :=
  if state.stopped then "stopped after " ++ toString state.failures ++ " failures"
  else "run interrupted"

/-- The tests without a result, in the order of the list. -/
def leftOver (state : State) : List Nat :=
  (List.range state.slots.length).filter fun index => state.slots[index]? == some none

/-- Give every test that is left the result that says so, and report it. -/
def close (state : State) : State :=
  let skipped := TestResult.ofReason .skipped state.skipReason
  { state with
    slots := state.slots.map (Slot.store · skipped)
    reported := state.reported ++ state.leftOver.map fun index => (index, skipped) }

/-- The sum of everything that was reported. -/
def summary (state : State) (duration : Duration) : Summary :=
  .ofKinds (state.reported.map fun (_, result) => result.kind) duration

end State

end SuiteRunner.Run
