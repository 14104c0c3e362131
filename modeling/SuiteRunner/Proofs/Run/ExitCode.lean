import SuiteRunner.Run.Interrupt
import SuiteRunner.Proofs.Run.Stopping

/-!
# What the exit code says

The exit code is zero only if no report is of a failure and no interrupt was noted. The flag
goes up only after one of these: the watcher notes an interrupt before it raises the flag, and
the listener stops a run only when it has reported a failure. So with the exit code zero the
flag was never up, and every test of the list was evaluated.
-/

namespace SuiteRunner.Run

theorem ResultKind.isFailure_iff (kind : ResultKind) :
    kind.isFailure = true ↔ kind ∈ [ResultKind.fail, .unresolved, .timeout] := by
  cases kind <;> decide

theorem Summary.exitCode_eq_zero_iff (summary : Summary) (interrupted : Bool) :
    summary.exitCode interrupted = 0 ↔ summary.success = true ∧ interrupted = false := by
  cases success : summary.success <;> cases interrupted <;> simp [exitCode, success]

/-- A run succeeds if no report is of a failure; tests that are skipped do not count. -/
theorem State.success_close_iff (state : State) (duration : Duration) :
    (state.close.summary duration).success = true ↔
      ∀ report ∈ state.reported, failing report = false := by
  simp only [summary, Summary.ofKinds, close, List.map_append, List.any_append, List.any_map,
    Bool.not_eq_true', Bool.or_eq_false_iff, List.any_eq_false]
  constructor
  · rintro ⟨reported, -⟩ report member
    simpa [failing] using reported report member
  · intro passed
    refine ⟨?_, ?_⟩
    · intro report member
      simpa [failing] using passed report member
    · intro index _
      simp [TestResult.ofReason, ResultKind.isFailure]

namespace Session

/-! ### Moves of a session -/

/-- Everything that a move can make of a session. -/
inductive Made (limit : Option Nat) (session : Session) : Move → Session → Prop where
  | run {move : Run.Move} {run : State} (inside : move ≠ .abort)
      (stepped : session.run.step? limit move = some run) :
      Made limit session (.run move) { session with run }
  | interrupt : Made limit session .interrupt { session with pending := session.pending + 1 }
  | note (waiting : session.watcher = .waiting) (asked : 0 < session.pending) :
      Made limit session .note
        { session with watcher := .noted, pending := session.pending - 1, interrupted := true }
  | raise (noted : session.watcher = .noted) :
      Made limit session .raise
        { session with run := { session.run with aborted := true }, watcher := .raised }
  | kill (raised : session.watcher = .raised) (asked : 0 < session.pending) :
      Made limit session .kill
        { session with watcher := .gone, pending := session.pending - 1, killed := true }

theorem made_of_step {limit : Option Nat} {session next : Session} {move : Move}
    (stepped : session.step? limit move = some next) : Made limit session move next := by
  -- Each move of a session has one condition, which is what its constructor of `Made` asks for.
  cases move with
  | run move =>
    simp only [step?] at stepped
    split at stepped
    next => cases stepped
    next inside =>
      obtain ⟨run, made, rfl⟩ := Option.map_eq_some_iff.mp stepped
      exact .run inside made
  | interrupt => cases stepped; exact .interrupt
  | note =>
    simp only [step?] at stepped
    split at stepped
    next possible => cases stepped; exact .note possible.1 possible.2
    next => cases stepped
  | raise =>
    simp only [step?] at stepped
    split at stepped
    next noted => cases stepped; exact .raise noted
    next => cases stepped
  | kill =>
    simp only [step?] at stepped
    split at stepped
    next possible => cases stepped; exact .kill possible.1 possible.2
    next => cases stepped

/-- What moves make of a session, if each of them is possible when its turn comes. -/
def follow? (limit : Option Nat) (session : Session) : List Move → Option Session
  | [] => some session
  | move :: moves => (session.step? limit move).bind fun next => next.follow? limit moves

/-- What every move keeps holds after all moves. -/
theorem follow?_keeps {limit : Option Nat} (holds : Session → Prop) {moves : List Move}
    (keeps : ∀ {session next move}, move ∈ moves → holds session →
      Made limit session move next → holds next)
    {session final : Session} (initial : holds session)
    (followed : session.follow? limit moves = some final) : holds final := by
  induction moves generalizing session with
  | nil =>
    cases followed
    exact initial
  | cons move moves ih =>
    obtain ⟨next, stepped, followed⟩ := Option.bind_eq_some_iff.mp followed
    exact ih (fun member => keeps (List.mem_cons_of_mem _ member))
      (keeps List.mem_cons_self initial (made_of_step stepped)) followed

/-! ### The run itself -/

/-- What a move of a session is for the run itself. -/
def Move.inRun : Move → List Run.Move
  | .run move => [move]
  | .raise => [.abort]
  | .interrupt | .note | .kill => []

/-- The moves of the run itself. -/
def runMoves (moves : List Move) : List Run.Move := moves.flatMap Move.inRun

theorem lose_mem_runMoves {moves : List Move} {worker : Nat} :
    .lose worker ∈ runMoves moves ↔ .run (.lose worker) ∈ moves := by
  simp only [runMoves, List.mem_flatMap]
  constructor
  · rintro ⟨move, member, same⟩
    cases move with
    | run move => exact List.mem_singleton.mp same ▸ member
    | raise | interrupt | note | kill => simp [Move.inRun] at same
  · intro member
    exact ⟨_, member, List.mem_singleton.mpr rfl⟩

theorem Made.follow_run {limit : Option Nat} {session next : Session} {move : Move}
    (made : Made limit session move next) :
    session.run.follow? limit move.inRun = some next.run := by
  cases made with
  | run _ stepped => rw [Move.inRun, State.follow?, stepped, Option.bind_some, State.follow?]
  | interrupt | note | raise | kill => rfl

/-- Every session goes along with a run of its own moves. -/
theorem follow_run {limit : Option Nat} {session final : Session} {moves : List Move}
    (followed : session.follow? limit moves = some final) :
    session.run.follow? limit (runMoves moves) = some final.run := by
  induction moves generalizing session with
  | nil =>
    cases followed
    rfl
  | cons move moves ih =>
    obtain ⟨next, stepped, followed⟩ := Option.bind_eq_some_iff.mp followed
    rw [runMoves, List.flatMap_cons, State.follow?_append, (made_of_step stepped).follow_run,
      Option.bind_some]
    exact ih followed

/-! ### Honesty -/

/-- The flag is up only if an interrupt was noted or too many tests have failed. -/
structure Honest (session : Session) : Prop where
  noted : session.watcher ≠ .waiting → session.interrupted = true
  raised : session.run.aborted = true → session.interrupted = true ∨ session.run.stopped = true

theorem honest_initial (wanted tests : Nat) : Honest (initial wanted tests) := by
  refine ⟨?_, ?_⟩
  · intro moved
    exact absurd rfl moved
  · intro aborted
    cases aborted

theorem Honest.made {limit : Option Nat} {session next : Session} {move : Move}
    (honest : Honest session) (made : Made limit session move next) : Honest next := by
  cases made with
  | interrupt => exact ⟨honest.noted, honest.raised⟩
  | note => exact ⟨fun _ => rfl, fun _ => Or.inl rfl⟩
  | raise noted =>
    -- What the watcher is about to do follows what it has noted.
    have interrupted := honest.noted (by simp [noted])
    exact ⟨fun _ => interrupted, fun _ => Or.inl interrupted⟩
  | kill raised =>
    have interrupted := honest.noted (by simp [raised])
    exact ⟨fun _ => interrupted, honest.raised⟩
  | run inside stepped =>
    have made := State.made_of_step stepped
    refine ⟨honest.noted, ?_⟩
    intro aborted
    rcases made.aborted_cases aborted with before | raises | stopped
    · exact (honest.raised before).imp_right made.stopped
    · exact absurd raises inside
    · exact Or.inr stopped

/-- Nobody has interrupted the session. -/
structure Undisturbed (session : Session) : Prop where
  waiting : session.watcher = .waiting
  nothing : session.pending = 0
  uninterrupted : session.interrupted = false

theorem undisturbed_initial (wanted tests : Nat) : Undisturbed (initial wanted tests) :=
  ⟨rfl, rfl, rfl⟩

theorem Undisturbed.made {limit : Option Nat} {session next : Session} {move : Move}
    (undisturbed : Undisturbed session) (quiet : move ≠ .interrupt)
    (made : Made limit session move next) : Undisturbed next := by
  cases made with
  | run =>
    exact ⟨undisturbed.waiting, undisturbed.nothing, undisturbed.uninterrupted⟩
  | interrupt => exact absurd rfl quiet
  | note _ asked => simp [undisturbed.nothing] at asked
  | raise noted => simp [undisturbed.waiting] at noted
  | kill raised => simp [undisturbed.waiting] at raised

/-- However the workers, the listener, the watcher and those who interrupt the run take turns,
if no worker is lost: with the exit code zero every test was handed over, a result has come in
for each of them and none of these is a failure, a test that is unresolved or a timeout. If
nobody interrupts the run and no result is one of these, then the exit code is zero. -/
theorem exitCode_honest (limit : Option Nat) (wanted tests : Nat) (moves : List Move)
    (session : Session) (duration : Duration)
    (survive : ∀ worker, .run (.lose worker) ∉ moves)
    (followed : (initial wanted tests).follow? limit moves = some session)
    (settled : session.run.settled = true) :
    (session.exitCode duration = 0 →
      (State.initial wanted tests).evaluated limit (runMoves moves) = List.range tests ∧
      (((State.initial wanted tests).outcomes limit (runMoves moves)).map Prod.fst).Perm
        (List.range tests) ∧
      ∀ outcome ∈ (State.initial wanted tests).outcomes limit (runMoves moves),
        outcome.2.kind ∉ [ResultKind.fail, .unresolved, .timeout]) ∧
    (.interrupt ∉ moves →
      (∀ outcome ∈ (State.initial wanted tests).outcomes limit (runMoves moves),
        outcome.2.kind ∉ [ResultKind.fail, .unresolved, .timeout]) →
      session.exitCode duration = 0) := by
  have run := follow_run followed
  have survive : ∀ worker, .lose worker ∉ runMoves moves := by
    intro worker member
    exact survive worker (lose_mem_runMoves.mp member)
  have came := State.Accounted.reported_perm_outcomes survive run settled
  have passed_iff : (session.run.close.summary duration).success = true ↔
      ∀ outcome ∈ (State.initial wanted tests).outcomes limit (runMoves moves),
        outcome.2.kind ∉ [ResultKind.fail, .unresolved, .timeout] := by
    rw [State.success_close_iff]
    simp only [came.mem_iff, ← ResultKind.isFailure_iff, failing, Bool.not_eq_true]
  rw [exitCode, Summary.exitCode_eq_zero_iff, passed_iff]
  refine ⟨?_, ?_⟩
  · rintro ⟨passed, uninterrupted⟩
    have honest : Honest session :=
      follow?_keeps Honest (fun _ honest made => honest.made made) (honest_initial wanted tests)
        followed
    have running : session.run.stopped = false := by
      have counted := State.counted_of_followed run
      rw [counted.stopped, counted.failures, came.countP_eq, List.countP_eq_zero.mpr]
      · rfl
      · intro outcome member failed
        exact passed outcome member ((ResultKind.isFailure_iff _).mp failed)
    have down : ¬ session.run.aborted = true := by
      intro aborted
      have raised := honest.raised aborted
      simp [uninterrupted, running] at raised
    -- The flag was never up, so nobody left before the end of the list.
    have all := (State.exhausted survive run settled).resolve_left down
    have everything : min session.run.cursor tests = tests := Nat.min_eq_right all
    have evaluated := State.evaluated_initial run
    have results := State.Accounted.outcomes_perm_range survive run settled
    rw [everything] at evaluated results
    exact ⟨evaluated, results, passed⟩
  · intro quiet passed
    have undisturbed : Undisturbed session := by
      refine follow?_keeps Undisturbed ?_ (undisturbed_initial wanted tests) followed
      intro session next move member undisturbed made
      refine undisturbed.made ?_ made
      rintro rfl
      exact quiet member
    exact ⟨passed, undisturbed.uninterrupted⟩

/-- The run is interrupted while the last test is evaluated, and both tests pass before the
watcher takes notice. -/
def lateInterrupt : List Move :=
  [.run (.look 0), .run (.claim 0), .run (.look 1), .run (.claim 1),
    .run (.store 0 { kind := .pass }), .interrupt, .run (.tell 0), .run .hear, .run (.look 0),
    .run (.claim 0), .run (.store 1 { kind := .xpass }), .run (.tell 1), .run (.look 1),
    .run (.claim 1), .run .hear]

theorem lateInterrupt_honest :
    ∃ session, (initial 2 2).follow? none lateInterrupt = some session ∧
      session.run.settled = true ∧ session.exitCode .zero = 0 ∧
      (State.initial 2 2).evaluated none (runMoves lateInterrupt) = List.range 2 ∧
      ∀ outcome ∈ (State.initial 2 2).outcomes none (runMoves lateInterrupt),
        outcome.2.kind ∉ [ResultKind.fail, .unresolved, .timeout] := by
  have survive : ∀ worker, .run (.lose worker) ∉ lateInterrupt := by simp [lateInterrupt]
  have followed : ((initial 2 2).follow? none lateInterrupt).isSome := by decide
  obtain ⟨session, followed⟩ := Option.isSome_iff_exists.mp followed
  have facts : ((initial 2 2).follow? none lateInterrupt).all fun session =>
      session.run.settled ∧ session.exitCode .zero = 0 := by decide
  rw [followed, Option.all_some, decide_eq_true_eq] at facts
  obtain ⟨settled, zero⟩ := facts
  obtain ⟨evaluated, -, passed⟩ :=
    (exitCode_honest none 2 2 lateInterrupt session .zero survive followed settled).1 zero
  exact ⟨session, followed, settled, zero, evaluated, passed⟩

end Session

end SuiteRunner.Run
