import SuiteRunner.Proofs.Run.ExitCode
import SuiteRunner.Proofs.Run.Independence

/-!
# Tests that are lost with their workers

A worker that does not survive a test takes the test along. To everybody else it looks as if
somebody were busy with that test for ever, so a run with losses is accounted for like one in
which every lost test still has a worker of its own. At the end of a run a lost test has no
result and is skipped like the tests that nobody has taken, and whether the run succeeds is told
by the results that came in.
-/

namespace SuiteRunner.Run.State

variable {limit : Option Nat} {tests : Nat} {state next final : State} {move : Move}
  {moves : List Move} {lost : List Nat}

/-! ### Workers that are busy for ever -/

/-- The state in which every lost test still has a worker that is busy with it. -/
def haunted (state : State) (lost : List Nat) : State :=
  { state with workers := state.workers ++ lost.map .busy }

theorem haunted_nil (state : State) : state.haunted [] = state := by
  simp [haunted]

theorem getElem?_haunted {worker : Nat} {phase : Worker}
    (found : state.workers[worker]? = some phase) (lost : List Nat) :
    (state.haunted lost).workers[worker]? = some phase := by
  rw [haunted, List.getElem?_append_left (List.getElem?_eq_some_iff.mp found).1, found]

theorem setWorker_haunted {worker : Nat} {phase : Worker}
    (found : state.workers[worker]? = some phase) (lost : List Nat) (after : Worker) :
    (state.haunted lost).setWorker worker after = (state.setWorker worker after).haunted lost := by
  have bound := (List.getElem?_eq_some_iff.mp found).1
  simp only [setWorker, haunted, List.set_append_left _ _ bound]

theorem note_haunted (limit : Option Nat) (index : Nat) (result : TestResult) (state : State)
    (lost : List Nat) :
    note limit index result (state.haunted lost) =
      (note limit index result state).haunted lost := by
  unfold note haunted
  dsimp only
  split <;> [split; skip] <;> rfl

/-- Nobody who is busy for ever keeps the others from moving. -/
theorem Made.haunted (made : Made limit state move next) (lost : List Nat) :
    Made limit (state.haunted lost) move (next.haunted lost) := by
  -- A worker keeps its place in the list, since all others are put behind it.
  cases made with
  | leave free aborted =>
    rw [← setWorker_haunted free]
    exact .leave (getElem?_haunted free lost) aborted
  | clear free running =>
    rw [← setWorker_haunted free]
    exact .clear (getElem?_haunted free lost) running
  | @take worker cleared left =>
    have taken : Made limit (state.haunted lost) (.claim worker) _ :=
      .take (getElem?_haunted cleared lost) left
    rw [setWorker_haunted cleared] at taken
    exact taken
  | @miss worker cleared noneLeft =>
    have missed : Made limit (state.haunted lost) (.claim worker) _ :=
      .miss (getElem?_haunted cleared lost) noneLeft
    rw [setWorker_haunted cleared] at missed
    exact missed
  | @store worker index result busy =>
    have stored : Made limit (state.haunted lost) (.store worker result) _ :=
      .store result (getElem?_haunted busy lost)
    rw [setWorker_haunted busy] at stored
    exact stored
  | lose busy =>
    rw [← setWorker_haunted busy]
    exact .lose (getElem?_haunted busy lost)
  | @tell worker index stored =>
    have told : Made limit (state.haunted lost) (.tell worker) _ :=
      .tell (getElem?_haunted stored lost)
    rw [setWorker_haunted stored] at told
    exact told
  | @hear index channel result told found =>
    have heard : Made limit (state.haunted lost) .hear _ := .hear told found
    have kept := note_haunted limit index result { state with channel } lost
    exact kept ▸ heard
  | ignore told nothing => exact .ignore told nothing
  | abort => exact .abort

theorem brought_haunted (made : Made limit state move next) (lost : List Nat) :
    (state.haunted lost).brought move = state.brought move := by
  cases made with
  | store result busy => simp only [brought, getElem?_haunted busy lost, busy]
  | leave | clear | take | miss | lose | tell | hear | ignore | abort => rfl

/-! ### Accounting for lost tests -/

/-- The tests whose workers did not survive them. -/
def casualties (attempts : List (Nat × Option TestResult)) : List Nat :=
  attempts.filterMap fun attempt => if attempt.2.isNone then some attempt.1 else none

theorem mem_casualties {attempts : List (Nat × Option TestResult)} {index : Nat} :
    index ∈ casualties attempts ↔ (index, none) ∈ attempts := by
  simp [casualties]

theorem casualties_attempted (survives : ∀ worker, move ≠ .lose worker) (state : State) :
    casualties (state.attempted move) = [] := by
  cases move with
  | store worker result =>
    simp only [attempted]
    split <;> rfl
  | lose worker => exact absurd rfl (survives worker)
  | look | claim | tell | hear | abort => rfl

namespace Accounted

/-- A lost test goes over from its worker to one that is busy for ever. -/
theorem lose (accounted : Accounted tests (state.haunted lost)) {worker index : Nat}
    (busy : state.workers[worker]? = some (.busy index)) :
    Accounted tests ((state.setWorker worker .gone).haunted (lost ++ [index])) := by
  -- The lost test is no longer held by its worker, and is held by the ghost of it instead: each
  -- count of a worker that is present stays what it was.
  have same (phase : Worker) (present : phase ≠ .gone) :
      ((state.setWorker worker .gone).haunted (lost ++ [index])).workers.count phase =
        (state.haunted lost).workers.count phase := by
    have counted := count_set_workers busy .gone phase
    rw [if_neg present.symm] at counted
    change (state.workers.set worker .gone ++ (lost ++ [index]).map Worker.busy).count phase =
      (state.workers ++ lost.map Worker.busy).count phase
    rw [List.map_append, List.map_singleton, List.count_append, List.count_append,
      List.count_append, List.count_singleton]
    simp only [beq_iff_eq]
    omega
  refine ⟨accounted.size, fun other => ?_, fun other below => ?_, accounted.held⟩
  · have passed := accounted.passed other
    rw [places, ← same (.busy other) (by simp), ← same (.stored other) (by simp)] at passed
    exact passed
  · rw [same (.busy other) (by simp)]
    exact accounted.open_iff other below

/-- Every move keeps all tests accounted for, together with those that have been lost. -/
theorem step (accounted : Accounted tests (state.haunted lost))
    (made : Made limit state move next) :
    Accounted tests (next.haunted (lost ++ casualties (state.attempted move))) := by
  by_cases loses : ∃ worker, move = .lose worker
  · obtain ⟨worker, rfl⟩ := loses
    cases made with
    | @lose _ index busy =>
      have one : casualties (state.attempted (.lose worker)) = [index] := by
        simp only [attempted, busy]
        rfl
      rw [one]
      exact accounted.lose busy
  · have survives : ∀ worker, move ≠ .lose worker := fun worker same => loses ⟨worker, same⟩
    rw [casualties_attempted survives, List.append_nil]
    exact accounted.made survives (made.haunted lost)

/-- Moves keep all tests accounted for, together with those that have been lost. -/
theorem along (accounted : Accounted tests (state.haunted lost))
    (followed : state.follow? limit moves = some final) :
    Accounted tests (final.haunted (lost ++ casualties (state.attempts limit moves))) := by
  -- What is lost by the first move is lost before all the later ones.
  induction moves generalizing state lost with
  | nil =>
    cases followed
    simpa [attempts, gather, casualties] using accounted
  | cons move moves ih =>
    obtain ⟨next, stepped, followed⟩ := follow?_cons followed
    have later := ih (accounted.step (made_of_step stepped)) followed
    rw [attempts, gather_cons stepped, casualties, List.filterMap_append, ← List.append_assoc]
    exact later

/-- A test has a result after all moves if it had that result before or if one of them
brought it, whatever has been lost. -/
theorem held_along_iff (accounted : Accounted tests (state.haunted lost))
    (followed : state.follow? limit moves = some final) {index : Nat} {result : TestResult} :
    final.slots[index]? = some (some result) ↔
      state.slots[index]? = some (some result) ∨
        (index, result) ∈ state.outcomes limit moves := by
  induction moves generalizing state lost with
  | nil =>
    cases followed
    simp [outcomes, gather]
  | cons move moves ih =>
    obtain ⟨next, stepped, followed⟩ := follow?_cons followed
    have made := made_of_step stepped
    have filled : next.slots[index]? = some (some result) ↔
        state.slots[index]? = some (some result) ∨ (index, result) ∈ state.brought move := by
      rw [← brought_haunted made lost]
      exact accounted.filled_iff (made.haunted lost)
    rw [ih (accounted.step made) followed, filled, outcomes, outcomes, gather_cons stepped,
      List.mem_append, or_assoc]

end Accounted

/-! ### The end of a run with losses -/

section Runs

variable {wanted : Nat}

theorem accounted_start (wanted tests : Nat) :
    Accounted tests ((initial wanted tests).haunted []) :=
  (haunted_nil (initial wanted tests)).symm ▸ accounted_initial wanted tests

theorem accounted_of_followed (followed : (initial wanted tests).follow? limit moves = some state) :
    Accounted tests
      (state.haunted (casualties ((initial wanted tests).attempts limit moves))) :=
  (accounted_start wanted tests).along followed

/-- Once everything has settled, a test that the cursor has passed was lost or reported. -/
theorem count_lost_add_reported (accounted : Accounted tests (state.haunted lost))
    (settled : state.settled = true) (index : Nat) :
    lost.count index + (state.reported.map Prod.fst).count index =
      if index < min state.cursor tests then 1 else 0 := by
  obtain ⟨busy, stored, told⟩ := Accounted.settled_places settled index
  have passed : (state.haunted lost).places index =
      if index < min state.cursor tests then 1 else 0 := accounted.passed index
  have ghosts : (lost.map Worker.busy).count (.busy index) = lost.count index :=
    List.count_map_of_injective _ _ (fun _ _ => Worker.busy.inj) _
  have quiet : (lost.map Worker.busy).count (.stored index) = 0 :=
    List.count_eq_zero.mpr (by simp)
  simp only [places, haunted, List.count_append, busy, stored, told, ghosts, quiet] at passed
  omega

/-- Once everything has settled, a test has no result if nobody has taken it or it was lost. -/
theorem missing_iff_lost (accounted : Accounted tests (state.haunted lost))
    (settled : state.settled = true) {index : Nat} (below : index < tests) :
    state.slots[index]? = some none ↔ state.cursor ≤ index ∨ index ∈ lost := by
  have ghosts : 0 < (state.haunted lost).workers.count (.busy index) ↔ index ∈ lost := by
    rw [List.count_pos_iff, haunted, List.mem_append, List.mem_map]
    have gone := List.count_eq_zero.mp (Accounted.settled_places settled index).1
    simp [gone]
  rw [← ghosts]
  exact accounted.open_iff index below

theorem count_leftOver (state : State) (index : Nat) :
    state.leftOver.count index = if state.slots[index]? = some none then 1 else 0 := by
  have distinct : state.leftOver.Nodup := List.nodup_range.filter _
  rw [distinct.count]
  simp only [mem_leftOver]

/-- At the end of a run every test has been reported once, also if workers were lost. -/
theorem close_reported_perm (accounted : Accounted tests (state.haunted lost))
    (settled : state.settled = true) :
    (state.close.reported.map Prod.fst).Perm (List.range tests) := by
  refine List.perm_iff_count.mpr fun index => ?_
  have left : (state.leftOver.map fun index =>
      (index, TestResult.ofReason .skipped state.skipReason)).map Prod.fst = state.leftOver := by
    simp [Function.comp_def]
  have counted := count_lost_add_reported accounted settled index
  rw [close, List.map_append, List.count_append, left, List.count_range]
  have once := count_leftOver state index
  by_cases below : index < tests
  · rw [if_pos below]
    have missing := missing_iff_lost accounted settled below
    rw [← List.count_pos_iff] at missing
    -- What has no result is left, and all else was reported when it came in.
    by_cases empty : state.slots[index]? = some none
    · rw [if_pos empty] at once
      have unreported := missing.mp empty
      split at counted <;> omega
    · rw [if_neg empty] at once
      have came := mt missing.mpr empty
      rw [if_pos (by omega)] at counted
      omega
  · -- There is no such test, so nobody has taken it and it is not left.
    have size : state.slots.length = tests := accounted.size
    rw [List.getElem?_eq_none (by omega), if_neg (by simp)] at once
    rw [if_neg (by omega)] at counted
    rw [if_neg below]
    omega

/-- A test that was lost is skipped at the end of the run. -/
theorem skipped_of_lost (accounted : Accounted tests (state.haunted lost))
    (settled : state.settled = true) {index : Nat} (taken : index ∈ lost) :
    (index, TestResult.ofReason .skipped state.skipReason) ∈ state.close.reported := by
  have present : 0 < lost.count index := List.count_pos_iff.mpr taken
  have counted := count_lost_add_reported accounted settled index
  have below : index < tests := by
    split at counted <;> omega
  have missing := (missing_iff_lost accounted settled below).mpr (.inr taken)
  rw [close]
  exact List.mem_append_right _ (List.mem_map.mpr ⟨index, mem_leftOver.mpr missing, rfl⟩)

/-- Once everything has settled, what was reported is what came in, whatever was lost. -/
theorem mem_reported_iff_outcomes
    (followed : (initial wanted tests).follow? limit moves = some state)
    (settled : state.settled = true) {index : Nat} {result : TestResult} :
    (index, result) ∈ state.reported ↔
      (index, result) ∈ (initial wanted tests).outcomes limit moves := by
  have accounted := accounted_of_followed followed
  have empty : (initial wanted tests).slots[index]? ≠ some (some result) := by
    simp [initial, List.getElem?_replicate]
  have came : state.slots[index]? = some (some result) ↔
      (index, result) ∈ (initial wanted tests).outcomes limit moves :=
    ((accounted_start wanted tests).held_along_iff followed).trans (or_iff_right empty)
  rw [← came]
  constructor
  · exact accounted.held index result
  · intro found
    have below : index < tests := accounted.size ▸ (List.getElem?_eq_some_iff.mp found).1
    -- A test that has a result was taken and was not lost.
    have missing := missing_iff_lost accounted settled below
    rw [found, ← List.count_pos_iff] at missing
    simp only [Option.some.injEq, reduceCtorEq, false_iff, not_or] at missing
    have counted := count_lost_add_reported accounted settled index
    rw [if_pos (by omega)] at counted
    have member : index ∈ state.reported.map Prod.fst := List.count_pos_iff.mp (by omega)
    obtain ⟨⟨_, other⟩, listed, rfl⟩ := List.mem_map.mp member
    have same := accounted.held _ other listed
    cases found.symm.trans same
    exact listed

/-- A run succeeds if no result that came in is a failure. -/
theorem success_iff_outcomes
    (followed : (initial wanted tests).follow? limit moves = some state)
    (settled : state.settled = true) (duration : Duration) :
    (state.close.summary duration).success = true ↔
      ∀ outcome ∈ (initial wanted tests).outcomes limit moves, failing outcome = false := by
  rw [success_close_iff]
  exact forall_congr' fun outcome =>
    imp_congr_left (mem_reported_iff_outcomes followed settled)

end Runs

end SuiteRunner.Run.State
