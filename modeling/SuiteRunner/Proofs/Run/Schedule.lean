import SuiteRunner.Run.Schedule
import Mathlib.Data.List.Count

/-!
# Moves of a schedule

`Made` lists what a move can do, with the condition under which it does it, so that an
invariant of all schedules is proved by one case for each. The tests handed over to be
evaluated are, in this order, the tests that the cursor has passed.
-/

namespace SuiteRunner.Run.State

/-! ### One move -/

/-- Everything that a move can make of a state. -/
inductive Made (limit : Option Nat) (state : State) : Move → State → Prop where
  | leave {worker : Nat} (free : state.workers[worker]? = some .free)
      (aborted : state.aborted = true) :
      Made limit state (.look worker) (state.setWorker worker .gone)
  | clear {worker : Nat} (free : state.workers[worker]? = some .free)
      (running : state.aborted = false) :
      Made limit state (.look worker) (state.setWorker worker .cleared)
  | take {worker : Nat} (cleared : state.workers[worker]? = some .cleared)
      (left : state.cursor < state.slots.length) :
      Made limit state (.claim worker)
        { state.setWorker worker (.busy state.cursor) with cursor := state.cursor + 1 }
  | miss {worker : Nat} (cleared : state.workers[worker]? = some .cleared)
      (noneLeft : state.slots.length ≤ state.cursor) :
      Made limit state (.claim worker)
        { state.setWorker worker .gone with cursor := state.cursor + 1 }
  | store {worker index : Nat} (result : TestResult)
      (busy : state.workers[worker]? = some (.busy index)) :
      Made limit state (.store worker result)
        { state.setWorker worker (.stored index) with
          slots := state.slots.modify index (Slot.store · result) }
  | lose {worker index : Nat} (busy : state.workers[worker]? = some (.busy index)) :
      Made limit state (.lose worker) (state.setWorker worker .gone)
  | tell {worker index : Nat} (stored : state.workers[worker]? = some (.stored index)) :
      Made limit state (.tell worker)
        { state.setWorker worker .free with channel := state.channel ++ [index] }
  | hear {index : Nat} {channel : List Nat} {result : TestResult}
      (told : state.channel = index :: channel) (found : state.slots[index]? = some (some result)) :
      Made limit state .hear (note limit index result { state with channel })
  | ignore {index : Nat} {channel : List Nat} (told : state.channel = index :: channel)
      (nothing : ∀ result, state.slots[index]? ≠ some (some result)) :
      Made limit state .hear { state with channel }
  | abort : Made limit state .abort { state with aborted := true }

theorem made_of_step {limit : Option Nat} {state next : State} {move : Move}
    (stepped : state.step? limit move = some next) : Made limit state move next := by
  cases move with
  | look worker =>
    simp only [step?] at stepped
    split at stepped
    next free =>
      cases stepped
      cases aborted : state.aborted with
      | true => exact .leave free aborted
      | false => exact .clear free aborted
    next => cases stepped
  | claim worker =>
    simp only [step?] at stepped
    split at stepped
    next cleared =>
      cases stepped
      -- The cursor moves on in any case, also past the last test.
      by_cases left : state.cursor < state.slots.length
      · simpa only [if_pos left] using Made.take cleared left
      · simpa only [if_neg left] using Made.miss cleared (Nat.le_of_not_lt left)
    next => cases stepped
  | store worker result =>
    simp only [step?] at stepped
    split at stepped
    next index busy => cases stepped; exact .store result busy
    next => cases stepped
  | lose worker =>
    simp only [step?] at stepped
    split at stepped
    next index busy => cases stepped; exact .lose busy
    next => cases stepped
  | tell worker =>
    simp only [step?] at stepped
    split at stepped
    next index stored => cases stepped; exact .tell stored
    next => cases stepped
  | hear =>
    simp only [step?] at stepped
    split at stepped
    next => cases stepped
    next index channel told =>
      split at stepped
      next result found => cases stepped; exact .hear told found
      next nothing => cases stepped; exact .ignore told nothing
  | abort => cases stepped; exact .abort

/-! ### What the listener leaves alone -/

@[simp] theorem note_workers (limit : Option Nat) (index : Nat) (result : TestResult)
    (state : State) : (note limit index result state).workers = state.workers := by
  unfold note; dsimp only; split <;> [split; skip] <;> rfl

@[simp] theorem note_slots (limit : Option Nat) (index : Nat) (result : TestResult)
    (state : State) : (note limit index result state).slots = state.slots := by
  unfold note; dsimp only; split <;> [split; skip] <;> rfl

@[simp] theorem note_cursor (limit : Option Nat) (index : Nat) (result : TestResult)
    (state : State) : (note limit index result state).cursor = state.cursor := by
  unfold note; dsimp only; split <;> [split; skip] <;> rfl

@[simp] theorem note_channel (limit : Option Nat) (index : Nat) (result : TestResult)
    (state : State) : (note limit index result state).channel = state.channel := by
  unfold note; dsimp only; split <;> [split; skip] <;> rfl

@[simp] theorem note_reported (limit : Option Nat) (index : Nat) (result : TestResult)
    (state : State) :
    (note limit index result state).reported = state.reported ++ [(index, result)] := by
  unfold note; dsimp only; split <;> [split; skip] <;> rfl

/-! ### Sequences of moves -/

/-- What moves make of a state, if each of them is possible when its turn comes. -/
def follow? (limit : Option Nat) (state : State) : List Move → Option State
  | [] => some state
  | move :: moves => (state.step? limit move).bind fun next => next.follow? limit moves

/-- What is seen of possible moves, each in the state that it is made in. -/
def gather {α : Type} (seen : State → Move → List α) (limit : Option Nat) (state : State) :
    List Move → List α
  | [] => []
  | move :: moves =>
    seen state move ++ (state.step? limit move).elim [] fun next => next.gather seen limit moves

/-- The test that a possible move hands over to be evaluated. -/
def handed (state : State) : Move → List Nat
  | .claim _ => if state.cursor < state.slots.length then [state.cursor] else []
  | _ => []

/-- The result that a possible move brings, and the test that was evaluated. -/
def brought (state : State) : Move → List (Nat × TestResult)
  | .store worker result =>
    match state.workers[worker]? with
    | some (.busy index) => [(index, result)]
    | _ => []
  | _ => []

/-- The tests that moves hand over to be evaluated, in this order. -/
def evaluated (limit : Option Nat) (state : State) (moves : List Move) : List Nat :=
  state.gather handed limit moves

/-- The results of the tests that were evaluated, in the order in which they came. -/
def outcomes (limit : Option Nat) (state : State) (moves : List Move) : List (Nat × TestResult) :=
  state.gather brought limit moves

theorem gather_cons {α : Type} {seen : State → Move → List α} {limit : Option Nat}
    {state next : State} {move : Move} (stepped : state.step? limit move = some next)
    (moves : List Move) :
    state.gather seen limit (move :: moves) = seen state move ++ next.gather seen limit moves := by
  rw [gather, stepped, Option.elim_some]

theorem follow?_cons {limit : Option Nat} {state final : State} {move : Move} {moves : List Move}
    (followed : state.follow? limit (move :: moves) = some final) :
    ∃ next, state.step? limit move = some next ∧ next.follow? limit moves = some final :=
  Option.bind_eq_some_iff.mp followed

theorem follow?_append (limit : Option Nat) (state : State) (moves later : List Move) :
    state.follow? limit (moves ++ later) =
      (state.follow? limit moves).bind fun next => next.follow? limit later := by
  induction moves generalizing state with
  | nil => rfl
  | cons move moves ih => simp only [List.cons_append, follow?, Option.bind_assoc, ih]

theorem follow?_snoc {limit : Option Nat} {start state next : State} {moves : List Move}
    {move : Move} (followed : start.follow? limit moves = some state)
    (stepped : state.step? limit move = some next) :
    start.follow? limit (moves ++ [move]) = some next := by
  rw [follow?_append, followed, Option.bind_some, follow?, stepped, Option.bind_some, follow?]

/-- What every move keeps holds after all moves. -/
theorem follow?_keeps {limit : Option Nat} (holds : State → Prop) {moves : List Move}
    (keeps : ∀ {state next move}, move ∈ moves → holds state →
      Made limit state move next → holds next)
    {state final : State} (initial : holds state)
    (followed : state.follow? limit moves = some final) : holds final := by
  induction moves generalizing state with
  | nil =>
    cases followed
    exact initial
  | cons move moves ih =>
    obtain ⟨next, stepped, followed⟩ := follow?_cons followed
    exact ih (fun member => keeps (List.mem_cons_of_mem _ member))
      (keeps List.mem_cons_self initial (made_of_step stepped)) followed

/-! ### The cursor -/

theorem Made.slots_length {limit : Option Nat} {state next : State} {move : Move}
    (made : Made limit state move next) : next.slots.length = state.slots.length := by
  cases made <;> simp [setWorker]

/-- The cursor passes the tests that are handed over, one at a time. -/
theorem Made.cursor {limit : Option Nat} {state next : State} {move : Move}
    (made : Made limit state move next) :
    List.range (min state.cursor state.slots.length) ++ state.handed move =
      List.range (min next.cursor state.slots.length) := by
  cases made with
  | take cleared left =>
    -- Only here a test is handed over, and it is the one at the cursor.
    have passed : min (state.cursor + 1) state.slots.length =
        min state.cursor state.slots.length + 1 := by omega
    have first : min state.cursor state.slots.length = state.cursor := by omega
    simp only [handed, if_pos left, passed, List.range_succ, first]
  | miss cleared noneLeft =>
    -- The cursor may run past the end of the list, which hands over nothing.
    have passed : min (state.cursor + 1) state.slots.length =
        min state.cursor state.slots.length := by omega
    simp only [handed, if_neg (Nat.not_lt.mpr noneLeft), passed, List.append_nil]
  | leave | clear | store | lose | tell | hear | ignore | abort => simp [handed, setWorker]

/-- Moves evaluate the tests that the cursor passes, each once and in the order of the list. -/
theorem evaluated_eq_range {limit : Option Nat} {state final : State} {moves : List Move}
    (followed : state.follow? limit moves = some final) :
    List.range (min state.cursor state.slots.length) ++ state.evaluated limit moves =
      List.range (min final.cursor state.slots.length) := by
  induction moves generalizing state with
  | nil =>
    cases followed
    exact List.append_nil _
  | cons move moves ih =>
    obtain ⟨next, stepped, followed⟩ := follow?_cons followed
    have made := made_of_step stepped
    have later := ih followed
    rw [made.slots_length] at later
    rw [evaluated, gather_cons stepped, ← List.append_assoc, made.cursor]
    exact later

end SuiteRunner.Run.State
