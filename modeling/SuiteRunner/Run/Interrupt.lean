import SuiteRunner.Run.Schedule

/-!
# Interrupts

While a run goes on, a watcher waits for interrupts. On the first one it notes that the run
was interrupted and then raises the flag `aborted`, so that running tests are finished and
the others are skipped. On the second one it throws the kill switch, which shows only in the
results of the tests that are running. Between any two of these moves anything else may
happen. Besides the watcher only the listener raises the flag. The exit code is decided after
the run, by its summary and by what the watcher has noted until then.
-/

namespace SuiteRunner.Run

/-- Where the watcher is. -/
inductive Watcher where
  | waiting
  /-- It has noted the first interrupt and is about to raise the flag. -/
  | noted
  /-- It has raised the flag and waits for the second interrupt. -/
  | raised
  | gone
  deriving DecidableEq, Repr

/-- A run that is watched for interrupts. -/
structure Session where
  run : State
  watcher : Watcher := .waiting
  /-- How many interrupts there are that the watcher has not dealt with. -/
  pending : Nat := 0
  interrupted : Bool := false
  killed : Bool := false
  deriving DecidableEq, Repr

namespace Session

inductive Move where
  /-- A move of a worker or of the listener. -/
  | run (move : Run.Move)
  /-- Somebody interrupts the run. -/
  | interrupt
  | note
  | raise
  | kill
  deriving DecidableEq, Repr

def initial (wanted tests : Nat) : Session := { run := .initial wanted tests }

/-- What a move makes of a session in which it is possible. -/
def step? (limit : Option Nat) (session : Session) : Move → Option Session
  | .run move =>
    if move = .abort then none
    else (session.run.step? limit move).map fun run => { session with run }
  | .interrupt => some { session with pending := session.pending + 1 }
  | .note =>
    if session.watcher = .waiting ∧ 0 < session.pending then
      some { session with watcher := .noted, pending := session.pending - 1, interrupted := true }
    else none
  | .raise =>
    if session.watcher = .noted then
      (session.run.step? limit .abort).map fun run => { session with run, watcher := .raised }
    else none
  | .kill =>
    if session.watcher = .raised ∧ 0 < session.pending then
      some { session with watcher := .gone, pending := session.pending - 1, killed := true }
    else none

/-- The exit code, if all workers are gone and everything told has been heard. -/
def exitCode (session : Session) (duration : Duration) : Nat :=
  (session.run.close.summary duration).exitCode session.interrupted

end Session

end SuiteRunner.Run
