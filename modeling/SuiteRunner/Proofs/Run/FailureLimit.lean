import SuiteRunner.Proofs.Run.Stopping

/-!
# How far a run goes behind its limit

It is the listener that stops a run at its limit of failures, and it does so when it hears of
a failure, not when the result is stored. From then on a worker that looks at the flag leaves.
A worker that has found the flag down before takes one more test at most, and a worker with a
test finishes it. So no more results come in than there are workers in flight. Before that
nothing is bounded: as long as the listener has not heard of a failure, workers take test
after test.
-/

namespace SuiteRunner.Run

namespace State

section Bounds

variable {limit : Option Nat} {state next final : State} {move : Move} {moves : List Move}

/-! ### One move behind the limit -/

/-- Once the flag is up, nobody gets past it any more. -/
theorem Made.cleared (made : Made limit state move next) (aborted : state.aborted = true)
    {worker : Nat} (cleared : next.workers[worker]? = some .cleared) :
    state.workers[worker]? = some .cleared ∧ move ≠ .claim worker := by
  cases made with
  | clear _ running => simp [running] at aborted
  | leave found | take found | miss found | store _ found | lose found | tell found =>
    -- A worker that moves is not at the flag afterwards, so this one did not move.
    rw [setWorker, List.getElem?_set] at cleared
    split at cleared
    next same => split at cleared <;> simp at cleared
    next other =>
      refine ⟨cleared, ?_⟩
      intro same
      cases same <;> exact other rfl
  | hear | ignore | abort => exact ⟨by simpa using cleared, by simp⟩

/-- Once the flag is up, every test that is handed over goes to a worker that got past the
flag before. -/
theorem Made.handed (made : Made limit state move next) (aborted : state.aborted = true) :
    (state.handed move).length + next.workers.count .cleared ≤ state.workers.count .cleared := by
  -- Under an abort no further worker is cleared, so each test that is handed out uses up one that
  -- was cleared before.
  cases made with
  | leave found =>
    have moved := count_set_workers found .gone .cleared
    simp_all [State.handed, setWorker]
  | clear _ running => simp [running] at aborted
  | take cleared left =>
    have moved := count_set_workers cleared (.busy state.cursor) .cleared
    simp [State.handed, setWorker, left] at moved ⊢
    omega
  | miss cleared noneLeft =>
    have moved := count_set_workers cleared .gone .cleared
    simp [State.handed, setWorker, Nat.not_lt.mpr noneLeft] at moved ⊢
    omega
  | @store worker index result busy =>
    have moved := count_set_workers busy (.stored index) .cleared
    simp_all [State.handed, setWorker]
  | lose busy =>
    have moved := count_set_workers busy .gone .cleared
    simp_all [State.handed, setWorker]
  | tell stored =>
    have moved := count_set_workers stored .free .cleared
    simp_all [State.handed, setWorker]
  | hear | ignore | abort => simp [State.handed]

/-! ### All moves behind the limit -/

end Bounds

def failed : TestResult := { kind := .fail }

/-- One worker has evaluated tests that all failed, and the listener has not heard of any. -/
def unheard (done left : Nat) : State :=
  { cursor := done
    workers := [.free]
    slots := List.replicate done (some failed) ++ List.replicate left none
    channel := List.range done }

/-- A worker takes a test, which fails, and tells so. -/
def lap : List Move := [.look 0, .claim 0, .store 0 failed, .tell 0]

theorem modify_next (done left : Nat) :
    (List.replicate done (some failed) ++ List.replicate (left + 1) none).modify done
        (Slot.store · failed) =
      List.replicate (done + 1) (some failed) ++ List.replicate left none := by
  induction done with
  | zero => rfl
  | succ done ih =>
    rw [List.replicate_succ, List.cons_append, List.modify_succ_cons, ih]
    rfl

theorem follow?_lap (limit : Option Nat) (done left : Nat) :
    (unheard done (left + 1)).follow? limit lap = some (unheard (done + 1) left) := by
  simp [lap, follow?, step?, unheard, setWorker, List.range_succ, modify_next]

theorem follow?_laps (limit : Option Nat) (done left : Nat) :
    (unheard done left).follow? limit (List.replicate left lap).flatten =
      some (unheard (done + left) 0) := by
  induction left generalizing done with
  | zero => rfl
  | succ left ih =>
    rw [List.replicate_succ, List.flatten_cons, follow?_append, follow?_lap, Option.bind_some, ih,
      Nat.add_right_comm, Nat.add_assoc]

/-- Whatever the limit is, all tests may be evaluated and fail before the listener hears of the
first failure. -/
theorem unheard_failures (limit : Option Nat) (tests : Nat) :
    ∃ moves state, (initial 1 tests).follow? limit moves = some state ∧
      state.slots = List.replicate tests (some failed) ∧ state.reported = [] := by
  refine ⟨(List.replicate tests lap).flatten, unheard tests 0, ?_, by simp [unheard], rfl⟩
  have one : workerCount 1 tests = 1 := by
    rw [workerCount]
    omega
  have start : initial 1 tests = unheard 0 tests := by
    simp [initial, unheard, one]
  rw [start, follow?_laps, Nat.zero_add]

end State

end SuiteRunner.Run
