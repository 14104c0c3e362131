import SuiteRunner.Run.Runner
import SuiteRunner.Proofs.Run.Independence

/-!
# A run in rounds follows a schedule

Every part of a round makes a move or leaves things as they are, so a run in rounds is one of
the schedules, and the results in it are those of evaluating tests. A worker that has not left
after a round has taken a test in it, so the cursor moves on in every round until all workers
have left, which they have after one round more than there are tests. So whatever holds of all
schedules holds of a run in rounds.
-/

namespace SuiteRunner.Run

open Discovery

/-! ### One more move -/

namespace State

theorem gather_snoc {α : Type} {seen : State → Move → List α} {limit : Option Nat}
    {start state : State} {moves : List Move} (followed : start.follow? limit moves = some state)
    (move : Move) :
    start.gather seen limit (moves ++ [move]) =
      start.gather seen limit moves ++ seen state move := by
  induction moves generalizing start with
  | nil =>
    cases followed
    rw [List.nil_append, gather, gather, List.nil_append]
    cases state.step? limit move <;> simp [gather]
  | cons earlier moves ih =>
    obtain ⟨next, stepped, followed⟩ := follow?_cons followed
    rw [List.cons_append, gather_cons stepped, gather_cons stepped, ih followed, List.append_assoc]

end State

/-! ### Following a schedule -/

section Rounds

variable {σ : Type} {executor : Executor σ} {options : Options} {tests : List TestCase}
  {start world : σ} {state : State}

/-- A state and a world that a run of tests may have come to. -/
structure Carried (executor : Executor σ) (options : Options) (tests : List TestCase) (start : σ)
    (moves : List Move) (state : State) (world : σ) : Prop where
  followed :
    (State.initial options.workers tests.length).follow? options.maxFailures moves = some state
  led : executor.Leads start world
  raised : .abort ∈ moves → ∃ world, executor.Leads start world ∧ executor.aborted world = true
  evaluated : ∀ attempt ∈
    (State.initial options.workers tests.length).attempts options.maxFailures moves,
      executor.Evaluates options.timeout tests start attempt

/-- Some moves carry a run of tests to this state and world. -/
def Comes (executor : Executor σ) (options : Options) (tests : List TestCase) (start : σ)
    (reached : State × σ) : Prop :=
  ∃ moves, Carried executor options tests start moves reached.1 reached.2

theorem comes_initial (executor : Executor σ) (options : Options) (tests : List TestCase)
    (start : σ) :
    Comes executor options tests start (State.initial options.workers tests.length, start) :=
  ⟨[], rfl, .start, by simp, by simp [State.attempts, State.gather]⟩

/-- A move may be tried, whether it is possible or not. -/
theorem Comes.apply (comes : Comes executor options tests start (state, world)) (move : Move)
    (evaluates : ∀ attempt ∈ state.attempted move,
      executor.Evaluates options.timeout tests start attempt)
    (raises : move = .abort → executor.aborted world = true) :
    Comes executor options tests start (state.apply options.maxFailures move, world) := by
  obtain ⟨moves, carried⟩ := comes
  rw [State.apply]
  cases stepped : state.step? options.maxFailures move with
  | none => exact ⟨moves, carried⟩
  | some next =>
    refine ⟨moves ++ [move], State.follow?_snoc carried.followed stepped, carried.led, ?_, ?_⟩
    · intro member
      rcases List.mem_append.mp member with earlier | now
      · exact carried.raised earlier
      · exact ⟨world, carried.led, raises (List.mem_singleton.mp now).symm⟩
    · intro attempt member
      rw [State.attempts, State.gather_snoc carried.followed, List.mem_append] at member
      exact member.elim (carried.evaluated attempt) (evaluates attempt)

/-- A move that is neither an evaluation nor raises the flag can always be tried. -/
theorem Comes.apply_plain (comes : Comes executor options tests start (state, world))
    {move : Move} (plain : state.attempted move = []) (lowered : move ≠ .abort) :
    Comes executor options tests start (state.apply options.maxFailures move, world) :=
  comes.apply move (by simp [plain]) fun raises => absurd raises lowered

/-- An evaluation may change the world. -/
theorem Comes.evaluate (comes : Comes executor options tests start (state, world))
    (override : Option UInt64) (test : TestCase) :
    Comes executor options tests start (state, (evaluate executor override test world).2) := by
  obtain ⟨moves, carried⟩ := comes
  exact ⟨moves, carried.followed, leads_evaluate override test carried.led, carried.raised,
    carried.evaluated⟩

namespace Runner

theorem comes_takeTests (comes : Comes executor options tests start (state, world)) :
    Comes executor options tests start (takeTests options.maxFailures state, world) := by
  refine List.foldlRecOn _ _ (motive := fun state =>
    Comes executor options tests start (state, world)) comes ?_
  intro state comes worker _
  exact (comes.apply_plain (by rfl) (by simp)).apply_plain (by rfl) (by simp)

theorem comes_hearAll (comes : Comes executor options tests start (state, world)) :
    Comes executor options tests start (hearAll options.maxFailures state, world) := by
  refine List.foldlRecOn _ _ (motive := fun state =>
    Comes executor options tests start (state, world)) comes ?_
  intro state comes _ _
  exact comes.apply_plain (by rfl) (by simp)

theorem comes_watch (comes : Comes executor options tests start (state, world)) :
    Comes executor options tests start
      (watch executor options.maxFailures state world, world) := by
  rw [watch]
  split
  next wanted => exact comes.apply .abort (by simp [State.attempted]) fun _ => wanted
  next => exact comes

theorem comes_work (comes : Comes executor options tests start (state, world)) (worker : Nat) :
    Comes executor options tests start (work executor options tests worker state world) := by
  rw [work]
  split
  next index busy =>
    cases found : tests[index]? with
    | none => exact comes
    | some test =>
      have led : executor.Leads start world := comes.elim fun _ carried => carried.led
      have comes' := comes.evaluate options.timeout test
      dsimp only
      -- Either the result is stored and told, or the worker is lost.
      cases came : evaluate executor options.timeout test world with
      | mk result world' =>
        rw [came] at comes'
        cases result with
        | some result =>
          refine Comes.apply_plain (Comes.apply comes' _ ?_ (by simp)) (by rfl) (by simp)
          intro attempt member
          simp only [State.attempted, busy, List.mem_singleton] at member
          exact ⟨test, world, by rw [member]; exact found, led, by rw [came, member]⟩
        | none =>
          refine Comes.apply comes' _ ?_ (by simp)
          intro attempt member
          simp only [State.attempted, busy, List.mem_singleton] at member
          exact ⟨test, world, by rw [member]; exact found, led, by rw [came, member]⟩
  next => exact comes

theorem comes_workAll (comes : Comes executor options tests start (state, world)) :
    Comes executor options tests start (workAll executor options tests state world) := by
  refine List.foldlRecOn _ _ (motive := Comes executor options tests start) comes ?_
  rintro ⟨state, world⟩ comes worker _
  exact comes_work comes worker

theorem comes_rounds (count : Nat) (comes : Comes executor options tests start (state, world)) :
    Comes executor options tests start (rounds executor options tests count state world) := by
  induction count generalizing state world with
  | zero => exact comes
  | succ count ih => exact ih (comes_workAll (comes_hearAll (comes_takeTests (comes_watch comes))))

end Runner

end Rounds

/-! ### Turns of workers -/

namespace State

theorem apply_cases (limit : Option Nat) (state : State) (move : Move) :
    state.apply limit move = state ∨ Made limit state move (state.apply limit move) := by
  rw [State.apply]
  cases stepped : state.step? limit move with
  | none => exact Or.inl rfl
  | some next => exact Or.inr (made_of_step stepped)

/-- Nobody but this worker has done anything. -/
structure Turn (worker : Nat) (state next : State) : Prop where
  size : next.slots.length = state.slots.length
  crew : next.workers.length = state.workers.length
  moved : state.cursor ≤ next.cursor
  others : ∀ other, other ≠ worker → next.workers[other]? = state.workers[other]?

theorem Turn.refl (worker : Nat) (state : State) : Turn worker state state :=
  ⟨rfl, rfl, Nat.le_refl _, fun _ _ => rfl⟩

theorem Turn.trans {worker : Nat} {state next final : State} (earlier : Turn worker state next)
    (later : Turn worker next final) : Turn worker state final where
  size := later.size.trans earlier.size
  crew := later.crew.trans earlier.crew
  moved := Nat.le_trans earlier.moved later.moved
  others other different := (later.others other different).trans (earlier.others other different)

/-- The worker that makes a move, if a worker does. -/
def mover : Move → Option Nat
  | .look worker | .claim worker | .store worker _ | .lose worker | .tell worker => some worker
  | .hear | .abort => none

theorem Made.turn {limit : Option Nat} {state next : State} {move : Move} {worker : Nat}
    (made : Made limit state move next) (mine : mover move = some worker) :
    Turn worker state next := by
  refine ⟨made.slots_length, made.workers_length, ?_, ?_⟩
  · cases made <;> simp [setWorker]
  · -- Every move of a worker puts it in its own place of the list.
    intro other different
    cases made <;> cases mine <;> simp [setWorker, different.symm]

theorem Turn.apply (limit : Option Nat) (state : State) {move : Move} {worker : Nat}
    (mine : mover move = some worker) : Turn worker state (state.apply limit move) := by
  rcases apply_cases limit state move with same | made
  · rw [same]
    exact .refl worker state
  · exact made.turn mine

/-- What stays true of a worker that does nothing itself. -/
def Lasting (holds : State → Worker → Prop) : Prop :=
  ∀ ⦃state next : State⦄ ⦃phase : Worker⦄, next.slots.length = state.slots.length →
    state.cursor ≤ next.cursor → holds state phase → holds next phase

/-- The workers before this one have had their turn. -/
def InTurn (before after : State → Worker → Prop) (turn : Nat) (state : State) : Prop :=
  ∀ worker phase, state.workers[worker]? = some phase →
    (if worker < turn then after else before) state phase

theorem InTurn.next {before after : State → Worker → Prop} {worker : Nat} {state next : State}
    (before_lasts : Lasting before) (after_lasts : Lasting after)
    (inTurn : InTurn before after worker state) (turn : Turn worker state next)
    (comes : ∀ phase, state.workers[worker]? = some phase → before state phase →
      ∃ phase, next.workers[worker]? = some phase ∧ after next phase) :
    InTurn before after (worker + 1) next := by
  intro other phase found
  -- The workers in front have had their turn and those behind wait for it; only the one between
  -- moves.
  rcases Nat.lt_trichotomy other worker with earlier | rfl | later
  · have held := inTurn other phase (turn.others other (by omega) ▸ found)
    rw [if_pos earlier] at held
    rw [if_pos (by omega)]
    exact after_lasts turn.size turn.moved held
  · have bound := (List.getElem?_eq_some_iff.mp found).1
    rw [turn.crew] at bound
    have held := inTurn other _ (List.getElem?_eq_getElem bound)
    rw [if_neg (Nat.lt_irrefl other)] at held
    obtain ⟨phase', found', came⟩ := comes _ (List.getElem?_eq_getElem bound) held
    rw [if_pos (Nat.lt_succ_self other)]
    cases found.symm.trans found'
    exact came
  · have held := inTurn other phase (turn.others other (by omega) ▸ found)
    rw [if_neg (by omega)] at held
    rw [if_neg (by omega)]
    exact before_lasts turn.size turn.moved held

/-- When every worker has had its turn, what a turn comes to holds of every worker. -/
theorem all_of_turns {α : Type} (stateOf : α → State) (step : α → Nat → α) (start : α)
    {before after : State → Worker → Prop} (before_lasts : Lasting before)
    (after_lasts : Lasting after)
    (turn : ∀ item worker, Turn worker (stateOf item) (stateOf (step item worker)))
    (comes : ∀ item worker phase, (stateOf item).slots.length = (stateOf start).slots.length →
      (stateOf item).workers[worker]? = some phase → before (stateOf item) phase →
        ∃ phase, (stateOf (step item worker)).workers[worker]? = some phase ∧
          after (stateOf (step item worker)) phase)
    (initial : ∀ phase ∈ (stateOf start).workers, before (stateOf start) phase) :
    let final := (List.range (stateOf start).workers.length).foldl step start
    (stateOf final).slots.length = (stateOf start).slots.length ∧
      ∀ phase ∈ (stateOf final).workers, after (stateOf final) phase := by
  -- Turn by turn, with nobody else having moved in between.
  have turns : ∀ count, let item := (List.range count).foldl step start
      (stateOf item).slots.length = (stateOf start).slots.length ∧
        (stateOf item).workers.length = (stateOf start).workers.length ∧
        InTurn before after count (stateOf item) := by
    intro count
    induction count with
    | zero => exact ⟨rfl, rfl, fun _ phase found => initial phase (List.mem_of_getElem? found)⟩
    | succ count ih =>
      obtain ⟨size, crew, inTurn⟩ := ih
      rw [List.range_succ, List.foldl_append, List.foldl_cons, List.foldl_nil]
      generalize (List.range count).foldl step start = item at size crew inTurn
      have now := turn item count
      exact ⟨now.size.trans size, now.crew.trans crew,
        inTurn.next before_lasts after_lasts now fun phase => comes item count phase size⟩
  obtain ⟨size, crew, inTurn⟩ := turns (stateOf start).workers.length
  refine ⟨size, ?_⟩
  intro phase member
  obtain ⟨worker, bound, rfl⟩ := List.mem_iff_getElem.mp member
  have came := inTurn worker _ (List.getElem?_eq_getElem bound)
  rwa [if_pos (crew ▸ bound)] at came

/-- Between rounds a worker has left or is free, and then every round has moved the cursor. -/
def Rested (round : Nat) (state : State) (phase : Worker) : Prop :=
  phase = .gone ∨ phase = .free ∧ round ≤ state.cursor ∧ round ≤ state.slots.length

/-- In the middle of a round a worker has left or has taken a test in it. -/
def Occupied (round : Nat) (state : State) (phase : Worker) : Prop :=
  phase = .gone ∨
    ∃ index, phase = .busy index ∧ round ≤ index ∧ index < state.cursor ∧
      index < state.slots.length

theorem lasting_rested (round : Nat) : Lasting (Rested round) := by
  intro state next phase size moved rested
  rw [Rested, size]
  exact rested.imp_right fun ⟨free, passed, below⟩ => ⟨free, Nat.le_trans passed moved, below⟩

theorem lasting_occupied (round : Nat) : Lasting (Occupied round) := by
  intro state next phase size moved occupied
  rw [Occupied, size]
  exact occupied.imp_right fun ⟨index, busy, since, taken, below⟩ =>
    ⟨index, busy, since, Nat.lt_of_lt_of_le taken moved, below⟩

end State

namespace Runner

open State

/-- What a worker does when tests are taken. -/
def takeTest (limit : Option Nat) (state : State) (worker : Nat) : State :=
  (state.apply limit (.look worker)).apply limit (.claim worker)

theorem turn_takeTest (limit : Option Nat) (state : State) (worker : Nat) :
    Turn worker state (takeTest limit state worker) :=
  (Turn.apply limit state rfl).trans (Turn.apply limit _ rfl)

theorem occupied_takeTest (limit : Option Nat) {round : Nat} {state : State} {worker : Nat}
    {phase : Worker} (found : state.workers[worker]? = some phase)
    (rested : Rested round state phase) :
    ∃ phase, (takeTest limit state worker).workers[worker]? = some phase ∧
      Occupied round (takeTest limit state worker) phase := by
  have bound := (List.getElem?_eq_some_iff.mp found).1
  rcases rested with rfl | ⟨rfl, passed, below⟩
  · have same : takeTest limit state worker = state := by
      simp only [takeTest, State.apply, step?, found, Option.getD_none]
    exact ⟨.gone, by rw [same, found], Or.inl rfl⟩
  · cases aborted : state.aborted with
    | true =>
      -- It leaves when it looks at the flag, and there is nothing for it to claim.
      refine ⟨.gone, ?_, Or.inl rfl⟩
      simp only [takeTest, State.apply, step?, found, aborted, setWorker, Option.getD_some,
        Option.getD_none, List.getElem?_set_self bound, if_true]
    | false =>
      have taken : takeTest limit state worker =
          { state.setWorker worker
              (if state.cursor < state.slots.length then .busy state.cursor else .gone) with
            cursor := state.cursor + 1 } := by
        simp only [takeTest, State.apply, step?, found, aborted, setWorker, Option.getD_some,
          List.getElem?_set_self bound, List.set_set]
        rfl
      rw [taken]
      refine ⟨_, List.getElem?_set_self bound, ?_⟩
      by_cases left : state.cursor < state.slots.length
      · rw [if_pos left]
        exact Or.inr ⟨state.cursor, rfl, passed, Nat.lt_succ_self _, left⟩
      · rw [if_neg left]
        exact Or.inl rfl

variable {σ : Type} {executor : Executor σ} {options : Options} {tests : List TestCase}

theorem turn_work (worker : Nat) (state : State) (world : σ) :
    Turn worker state (work executor options tests worker state world).1 := by
  rw [work]
  split
  next =>
    split
    next => exact .refl worker state
    next =>
      split
      next => exact (Turn.apply _ state rfl).trans (Turn.apply _ _ rfl)
      next => exact Turn.apply _ state rfl
  next => exact .refl worker state

/-- A worker that has taken a test is free or has left after it, so another round goes by. -/
theorem rested_work {round : Nat} {state : State} {worker : Nat} {phase : Worker} (world : σ)
    (size : state.slots.length = tests.length) (found : state.workers[worker]? = some phase)
    (occupied : Occupied round state phase) :
    ∃ phase, (work executor options tests worker state world).1.workers[worker]? = some phase ∧
      Rested (round + 1) (work executor options tests worker state world).1 phase := by
  have bound := (List.getElem?_eq_some_iff.mp found).1
  rcases occupied with rfl | ⟨index, rfl, since, taken, below⟩
  · exact ⟨.gone, by simp only [work, found], Or.inl rfl⟩
  · have listed : index < tests.length := size ▸ below
    have present : tests[index]? = some tests[index] := List.getElem?_eq_getElem listed
    cases came : evaluate executor options.timeout tests[index] world with
    | mk result world' =>
      cases result with
      | none =>
        refine ⟨.gone, ?_, Or.inl rfl⟩
        simp only [work, found, present, came, State.apply, step?, setWorker, Option.getD_some,
          List.getElem?_set_self bound]
      | some result =>
        have done : (work executor options tests worker state world).1 =
            { state.setWorker worker .free with
              slots := state.slots.modify index (Slot.store · result)
              channel := state.channel ++ [index] } := by
          simp only [work, found, present, came, State.apply, step?, setWorker, Option.getD_some,
            List.getElem?_set_self bound, List.set_set]
        rw [done]
        -- The test it had was taken in this round, so the cursor is behind it by now.
        refine ⟨.free, List.getElem?_set_self bound, Or.inr ⟨rfl, ?_, ?_⟩⟩
        · exact Nat.succ_le_of_lt (Nat.lt_of_le_of_lt since taken)
        · simp only [List.length_modify]
          omega

/-! ### Rounds -/

/-- Neither the listener nor anybody who raises the flag moves the workers on. -/
structure Idle (state next : State) : Prop where
  size : next.slots.length = state.slots.length
  crew : next.workers = state.workers
  cursor : next.cursor = state.cursor

theorem Idle.apply (limit : Option Nat) (state : State) {move : Move}
    (nobody : mover move = none) : Idle state (state.apply limit move) := by
  rcases apply_cases limit state move with same | made
  · rw [same]
    exact ⟨rfl, rfl, rfl⟩
  · generalize state.apply limit move = next at made
    have size := made.slots_length
    cases made with
    | hear => exact ⟨size, note_workers .., note_cursor ..⟩
    | ignore | abort => exact ⟨size, rfl, rfl⟩
    | leave | clear | take | miss | store | lose | tell => cases nobody

theorem Idle.trans {state next final : State} (earlier : Idle state next)
    (later : Idle next final) : Idle state final :=
  ⟨later.size.trans earlier.size, later.crew.trans earlier.crew,
    later.cursor.trans earlier.cursor⟩

theorem idle_hearAll (limit : Option Nat) (state : State) : Idle state (hearAll limit state) := by
  refine List.foldlRecOn _ _ (motive := Idle state) ⟨rfl, rfl, rfl⟩ ?_
  intro next idle _ _
  exact idle.trans (Idle.apply limit next rfl)

theorem idle_watch (executor : Executor σ) (limit : Option Nat) (state : State) (world : σ) :
    Idle state (watch executor limit state world) := by
  rw [watch]
  split
  next => exact Idle.apply limit state rfl
  next => exact ⟨rfl, rfl, rfl⟩

theorem apply_hear_channel (limit : Option Nat) (state : State) :
    (state.apply limit .hear).channel = state.channel.tail := by
  rcases told : state.channel with _ | ⟨index, channel⟩
  · simp [State.apply, step?, told]
  · simp only [State.apply, step?, told]
    split <;> simp

/-- The listener leaves nothing in the channel. -/
theorem hearAll_channel (limit : Option Nat) (state : State) :
    (hearAll limit state).channel = [] := by
  -- One hearing for each test told takes them all, also those that it cannot report.
  have heard : ∀ (told : List Nat) (state : State),
      (told.foldl (fun state _ => state.apply limit .hear) state).channel =
        state.channel.drop told.length := by
    intro told
    induction told with
    | nil => exact fun _ => rfl
    | cons index told ih =>
      intro state
      rw [List.foldl_cons, ih, apply_hear_channel, List.drop_tail, List.length_cons]
  rw [hearAll, heard, List.drop_length]

theorem settled_hearAll (limit : Option Nat) {state : State}
    (gone : ∀ phase ∈ state.workers, phase = .gone) : (hearAll limit state).settled = true := by
  simp only [State.settled, hearAll_channel, (idle_hearAll limit state).crew, List.isEmpty_nil,
    Bool.and_true, List.all_eq_true, beq_iff_eq]
  exact gone

/-- After so many rounds, the workers that have not left have taken tests in all of them. -/
structure Between (tests : List TestCase) (done : Nat) (state : State) : Prop where
  size : state.slots.length = tests.length
  rested : ∀ phase ∈ state.workers, Rested done state phase

theorem between_initial (wanted : Nat) (tests : List TestCase) :
    Between tests 0 (State.initial wanted tests.length) := by
  refine ⟨by simp [State.initial], ?_⟩
  intro phase member
  exact Or.inr ⟨List.eq_of_mem_replicate member, Nat.zero_le _, Nat.zero_le _⟩

theorem Between.round (executor : Executor σ) (options : Options) {done : Nat} {state : State}
    (between : Between tests done state) (world : σ) :
    Between tests (done + 1) (round executor options tests state world).1 := by
  let limit := options.maxFailures
  rw [Runner.round]
  have watched := idle_watch executor limit state world
  generalize watch executor limit state world = alert at watched
  have rested : ∀ phase ∈ alert.workers, Rested done alert phase := by
    intro phase member
    rw [watched.crew] at member
    exact lasting_rested done watched.size (Nat.le_of_eq watched.cursor.symm)
      (between.rested phase member)
  -- Everybody who has not left takes a test,
  have taken := all_of_turns id (takeTest limit) alert (lasting_rested done)
    (lasting_occupied done) (turn_takeTest limit)
    (fun _ _ _ _ found => occupied_takeTest limit found) rested
  have heard := idle_hearAll limit (takeTests limit alert)
  generalize hearAll limit (takeTests limit alert) = ready at heard
  have size : ready.slots.length = tests.length :=
    heard.size.trans (taken.1.trans (watched.size.trans between.size))
  have occupied : ∀ phase ∈ ready.workers, Occupied done ready phase := by
    intro phase member
    rw [heard.crew] at member
    exact lasting_occupied done heard.size (Nat.le_of_eq heard.cursor.symm)
      (taken.2 phase member)
  -- and the listener lets them go on to evaluate the tests.
  have worked := all_of_turns Prod.fst
    (fun item worker => work executor options tests worker item.1 item.2) (ready, world)
    (lasting_occupied done) (lasting_rested (done + 1))
    (fun item worker => turn_work worker item.1 item.2)
    (fun item _ _ same => rested_work item.2 (same.trans size)) occupied
  exact ⟨worked.1.trans size, worked.2⟩

theorem Between.rounds (executor : Executor σ) (options : Options) (count : Nat) {done : Nat}
    {state : State} (between : Between tests done state) (world : σ) :
    Between tests (done + count) (rounds executor options tests count state world).1 := by
  induction count generalizing done state world with
  | zero => exact between
  | succ count ih =>
    rw [Runner.rounds, Nat.add_comm count 1, ← Nat.add_assoc]
    exact ih (between.round executor options world) _

/-- After one round more than there are tests, every worker has left. -/
theorem Between.all_gone {done : Nat} {state : State} (between : Between tests done state)
    (enough : tests.length < done) : ∀ phase ∈ state.workers, phase = .gone := by
  intro phase member
  rcases between.rested phase member with gone | ⟨-, -, below⟩
  · exact gone
  · rw [between.size] at below
    omega

end Runner

/-- A run in rounds follows a schedule up to its end, and its results are those of evaluating
tests. -/
theorem runTests_follows {σ : Type} (executor : Executor σ) (options : Options)
    (tests : List TestCase) (start : σ) :
    ∃ moves state,
      Carried executor options tests start moves state
        (runTests executor options tests start).2 ∧
      state.settled = true ∧
      (runTests executor options tests start).1 =
        ⟨tests.length, state.close.reported.filterMap fun report =>
          tests[report.1]?.map fun test => (test.name, report.2)⟩ := by
  have comes := Runner.comes_hearAll (Runner.comes_rounds (tests.length + 1)
    (comes_initial executor options tests start))
  have between := (Runner.between_initial options.workers tests).rounds executor options
    (tests.length + 1) start
  obtain ⟨moves, carried⟩ := comes
  have gone := between.all_gone (by omega)
  exact ⟨moves, _, carried, Runner.settled_hearAll options.maxFailures gone, rfl⟩

/-- With an executor that is steady for tests, a run of them in rounds that has no limit and that
nobody stops reports of each test what evaluating it first comes to, apart from the time, with
any number of workers. -/
theorem runTests_reports {σ : Type} (executor : Executor σ) (options : Options)
    (tests : List TestCase) (start : σ) (steady : executor.Steady tests start)
    (unlimited : options.maxFailures = none)
    (undisturbed : ∀ world, executor.Leads start world → executor.aborted world = false) :
    ((runTests executor options tests start).1.reported.map fun report =>
        (report.1, report.2.untimed)).Perm
      (tests.filterMap fun test =>
        (evaluate executor options.timeout test start).1.map fun result =>
          (test.name, result.untimed)) := by
  obtain ⟨moves, state, carried, settled, came⟩ := runTests_follows executor options tests start
  have unraised : .abort ∉ moves := by
    intro raised
    obtain ⟨world, led, aborted⟩ := carried.raised raised
    rw [undisturbed world led] at aborted
    cases aborted
  have performs : executor.Performs options.timeout tests start options.workers moves state :=
    ⟨unlimited ▸ carried.followed, settled, unraised, unlimited ▸ carried.evaluated⟩
  -- The tests are known by their places in the list until they are given their names.
  let named (report : Nat × Option TestResult) : Option (String × TestResult) :=
    tests[report.1]?.bind fun test => report.2.map fun result => (test.name, result)
  have reports : (runTests executor options tests start).1.reported.map
      (fun report => (report.1, report.2.untimed)) = state.untimedReports.filterMap named := by
    rw [came, State.untimedReports, List.map_filterMap, List.filterMap_map]
    refine List.filterMap_congr ?_
    intro report _
    cases found : tests[report.1]? <;> simp [named, found]
  let result (test : TestCase) : Option (String × TestResult) :=
    (evaluate executor options.timeout test start).1.map fun result => (test.name, result.untimed)
  have results : ((evaluateAll executor options.timeout tests start).1.mapIdx fun index result =>
      (index, result.map TestResult.untimed)).map named = tests.map result := by
    rw [steady.evaluateAll_eq options.timeout (List.Subset.refl tests) .start]
    refine List.ext_getElem (by simp) ?_
    intro index bound _
    have below : index < tests.length := by simpa using bound
    simp [named, result, below, Option.map_map, Function.comp_def]
  have same := ((performs.reported_perm steady).map named).filterMap id
  rw [results, List.filterMap_map, List.filterMap_map] at same
  rw [reports]
  exact same

end SuiteRunner.Run
