import SuiteRunner.Proofs.Run.ExactlyOnce

/-!
# Where a run stops

The listener counts the failures it hears of. Once there are as many as the limit says, the
run is stopped and the flag goes up, but counting goes on while the tests in flight come in.
A worker leaves before the end of the list only if the flag is up. So the tests that were
evaluated are the first ones of the list, the others are skipped, and why they were skipped
can be told from the results alone.
-/

namespace SuiteRunner.Run

/-- Whether a report makes the whole run unsuccessful. -/
def failing (report : Nat × TestResult) : Bool := report.2.kind.isFailure

/-- Whether so many failures stop a run. -/
def tooMany (limit : Option Nat) (failures : Nat) : Bool :=
  0 < failures && limit.any (· ≤ failures)

namespace State

/-! ### What the listener counts -/

/-- Whether the listener stops the run when it hears of a result. -/
def stopsAt (state : State) (limit : Option Nat) (result : TestResult) : Bool :=
  result.kind.isFailure && limit.any (· ≤ state.failures + 1)

theorem note_failures (limit : Option Nat) (index : Nat) (result : TestResult) (state : State) :
    (note limit index result state).failures =
      state.failures + if failing (index, result) then 1 else 0 := by
  unfold note failing
  dsimp only
  split
  · split <;> rfl
  · rfl

theorem note_stopped (limit : Option Nat) (index : Nat) (result : TestResult) (state : State) :
    (note limit index result state).stopped = (state.stopped || state.stopsAt limit result) := by
  unfold note stopsAt
  dsimp only
  split
  next failed => split <;> simp [*]
  next passed => simp [passed]

theorem note_aborted (limit : Option Nat) (index : Nat) (result : TestResult) (state : State) :
    (note limit index result state).aborted = (state.aborted || state.stopsAt limit result) := by
  unfold note stopsAt
  dsimp only
  split
  next failed => split <;> simp [*]
  next passed => simp [passed]

/-- The count of failures tells whether the listener has stopped the run. -/
structure Counted (limit : Option Nat) (state : State) : Prop where
  failures : state.failures = state.reported.countP failing
  stopped : state.stopped = tooMany limit state.failures
  raised : state.stopped = true → state.aborted = true

theorem counted_initial (limit : Option Nat) (wanted tests : Nat) :
    Counted limit (initial wanted tests) := by
  refine ⟨rfl, rfl, ?_⟩
  intro stopped
  cases stopped

theorem Counted.hear {limit : Option Nat} {state : State} (counted : Counted limit state)
    (index : Nat) (result : TestResult) : Counted limit (note limit index result state) := by
  have more : (note limit index result state).failures =
      (note limit index result state).reported.countP failing := by
    rw [note_failures, note_reported, List.countP_append, counted.failures, List.countP_singleton]
  refine ⟨more, ?_, ?_⟩
  · rw [note_stopped, counted.stopped, note_failures]
    cases failed : failing (index, result) with
    | true =>
      -- A limit that was reached before stays reached.
      have failed : result.kind.isFailure = true := failed
      cases limit <;> simp [stopsAt, tooMany, failed]
      omega
    | false =>
      have passed : result.kind.isFailure = false := failed
      simp [stopsAt, passed]
  · rw [note_stopped, note_aborted, Bool.or_eq_true, Bool.or_eq_true]
    exact Or.imp_left counted.raised

theorem Counted.made {limit : Option Nat} {state next : State} {move : Move}
    (counted : Counted limit state) (made : Made limit state move next) : Counted limit next := by
  cases made with
  | @hear index channel result told found =>
    have listening : Counted limit { state with channel } :=
      ⟨counted.failures, counted.stopped, counted.raised⟩
    exact listening.hear index result
  | abort => exact ⟨counted.failures, counted.stopped, fun _ => rfl⟩
  | leave | clear | take | miss | store | lose | tell | ignore =>
    exact ⟨counted.failures, counted.stopped, counted.raised⟩

theorem counted_of_followed {limit : Option Nat} {wanted tests : Nat} {moves : List Move}
    {state : State} (followed : (initial wanted tests).follow? limit moves = some state) :
    Counted limit state :=
  follow?_keeps (Counted limit) (fun _ counted made => counted.made made)
    (counted_initial limit wanted tests) followed

/-! ### The flag -/

/-- The flag never goes down. -/
theorem Made.aborted {limit : Option Nat} {state next : State} {move : Move}
    (made : Made limit state move next) (aborted : state.aborted = true) :
    next.aborted = true := by
  cases made with
  | hear => simp [note_aborted, aborted]
  | abort => rfl
  | leave | clear | take | miss | store | lose | tell | ignore => exact aborted

theorem Made.stopped {limit : Option Nat} {state next : State} {move : Move}
    (made : Made limit state move next) (stopped : state.stopped = true) :
    next.stopped = true := by
  cases made with
  | hear => simp [note_stopped, stopped]
  | leave | clear | take | miss | store | lose | tell | ignore | abort => exact stopped

/-- The flag goes up if somebody raises it, or if the listener stops the run. -/
theorem Made.aborted_cases {limit : Option Nat} {state next : State} {move : Move}
    (made : Made limit state move next) (aborted : next.aborted = true) :
    state.aborted = true ∨ move = .abort ∨ next.stopped = true := by
  cases made with
  | hear =>
    rw [note_aborted, Bool.or_eq_true] at aborted
    rw [note_stopped, Bool.or_eq_true]
    exact aborted.imp_right fun stops => Or.inr (Or.inr stops)
  | abort => exact Or.inr (Or.inl rfl)
  | leave | clear | take | miss | store | lose | tell | ignore => exact Or.inl aborted

/-! ### Leaving early -/

theorem Made.workers_length {limit : Option Nat} {state next : State} {move : Move}
    (made : Made limit state move next) : next.workers.length = state.workers.length := by
  cases made <;> simp [setWorker]

/-- Workers have left only if the flag is up or no test is left to be taken. -/
def LeftWithReason (state : State) : Prop :=
  .gone ∈ state.workers → state.aborted = true ∨ state.slots.length ≤ state.cursor

theorem leftWithReason_initial (wanted tests : Nat) : LeftWithReason (initial wanted tests) := by
  intro left
  simp [initial, List.mem_replicate] at left

/-- A worker that goes on leaves everybody's reasons as they are. -/
theorem LeftWithReason.setWorker {state : State} (reason : LeftWithReason state) {worker : Nat}
    {phase : Worker} (stays : phase ≠ .gone) : LeftWithReason (state.setWorker worker phase) := by
  intro left
  rcases List.mem_or_eq_of_mem_set left with before | same
  · exact reason before
  · exact absurd same.symm stays

theorem LeftWithReason.made {limit : Option Nat} {state next : State} {move : Move}
    (reason : LeftWithReason state) (survives : ∀ worker, move ≠ .lose worker)
    (made : Made limit state move next) : LeftWithReason next := by
  cases made with
  -- A worker leaves since the flag is up or since it has found no test at the cursor. Either lasts.
  | leave _ aborted => exact fun _ => Or.inl aborted
  | miss _ noneLeft => exact fun _ => Or.inr (Nat.le_succ_of_le noneLeft)
  | clear | tell => exact reason.setWorker (by simp)
  | take =>
    intro left
    have further := reason.setWorker (by simp) left
    exact further.imp_right Nat.le_succ_of_le
  | @store worker index result busy =>
    have further : LeftWithReason (state.setWorker worker (.stored index)) :=
      reason.setWorker (by simp)
    intro left
    simpa [State.setWorker] using further left
  | lose => exact absurd rfl (survives _)
  -- The listener may raise the flag, but it never lowers it.
  | hear =>
    intro left
    rw [note_workers] at left
    rw [note_aborted, note_slots, note_cursor, Bool.or_eq_true]
    exact (reason left).imp_left Or.inl
  | ignore => exact reason
  | abort => exact fun _ => Or.inl rfl

section Runs

variable {limit : Option Nat} {wanted tests : Nat} {moves : List Move} {state : State}

/-- The tests that have been handed over are the first ones of the list. -/
theorem evaluated_initial (followed : (initial wanted tests).follow? limit moves = some state) :
    (initial wanted tests).evaluated limit moves = List.range (min state.cursor tests) := by
  have passed := evaluated_eq_range followed
  simpa [initial] using passed

theorem workers_length_of_followed
    (followed : (initial wanted tests).follow? limit moves = some state) :
    state.workers.length = workerCount wanted tests := by
  refine follow?_keeps (fun state => state.workers.length = workerCount wanted tests) ?_
    (by simp [initial]) followed
  exact fun _ same made => made.workers_length.trans same

/-- If nobody else raises the flag, it is up because too many tests have failed. -/
theorem stopped_of_aborted (unraised : .abort ∉ moves)
    (followed : (initial wanted tests).follow? limit moves = some state)
    (aborted : state.aborted = true) : state.stopped = true := by
  refine follow?_keeps (fun state => state.aborted = true → state.stopped = true) ?_
    (by simp [initial]) followed aborted
  intro state next move member held made aborted
  rcases made.aborted_cases aborted with before | rfl | stopped
  · exact made.stopped (held before)
  · exact absurd member unraised
  · exact stopped

/-- When all workers have left, the flag is up or every test was taken. -/
theorem exhausted (survive : ∀ worker, .lose worker ∉ moves)
    (followed : (initial wanted tests).follow? limit moves = some state)
    (settled : state.settled = true) : state.aborted = true ∨ tests ≤ state.cursor := by
  have reason : LeftWithReason state := by
    refine follow?_keeps LeftWithReason ?_ (leftWithReason_initial wanted tests) followed
    intro state next move member reason made
    refine reason.made ?_ made
    rintro worker rfl
    exact survive worker member
  -- There is at least one worker, so somebody has left.
  have some_worker : 0 < state.workers.length := by
    rw [workers_length_of_followed followed, workerCount]
    omega
  simp only [State.settled, Bool.and_eq_true, List.all_eq_true, beq_iff_eq] at settled
  have first := List.getElem_mem some_worker
  have left : .gone ∈ state.workers := settled.1 _ first ▸ first
  have size := (accounted_initial wanted tests).follow survive followed |>.size
  exact size ▸ reason left

end Runs

/-! ### Results that came in -/

namespace Accounted

variable {limit : Option Nat} {tests : Nat} {state : State}

/-- A result comes in for a test that has none. -/
theorem missing_of_brought (accounted : Accounted tests state) {move : Move} {index : Nat}
    {result : TestResult} (member : (index, result) ∈ state.brought move) :
    state.slots[index]? = some none := by
  cases move with
  | store worker stored =>
    simp only [brought] at member
    split at member
    next taken busy =>
      obtain ⟨rfl, -⟩ := Prod.mk.inj (List.mem_singleton.mp member)
      -- Whoever evaluates a test has not stored anything in its slot.
      have present := busy_places busy
      have below := (accounted.passed_of_present (places_of_busy present)).1
      exact (accounted.open_iff index (by omega)).mpr (Or.inr present)
    next => simp at member
  | look | claim | lose | tell | hear | abort => simp [brought] at member

/-- A test without a result had none before. -/
theorem missing_of_made (accounted : Accounted tests state) {next : State} {move : Move}
    (made : Made limit state move next) {index : Nat} (missing : next.slots[index]? = some none) :
    state.slots[index]? = some none := by
  have bound := made.slots_length ▸ (List.getElem?_eq_some_iff.mp missing).1
  cases held : state.slots[index] with
  | none => simp [bound, held]
  | some result =>
    have found : state.slots[index]? = some (some result) := by simp [bound, held]
    have kept := (accounted.filled_iff made).mpr (Or.inl found)
    rw [missing] at kept
    cases kept

/-- What is still to come is for tests without a result, and for each of them once. -/
theorem outcomes_fresh {final : State} {moves : List Move}
    (survive : ∀ worker, .lose worker ∉ moves) (accounted : Accounted tests state)
    (followed : state.follow? limit moves = some final) :
    ((state.outcomes limit moves).map Prod.fst).Nodup ∧
      ∀ outcome ∈ state.outcomes limit moves, state.slots[outcome.1]? = some none := by
  induction moves generalizing state with
  | nil => exact ⟨List.nodup_nil, by simp [outcomes, gather]⟩
  | cons move moves ih =>
    obtain ⟨next, stepped, followed⟩ := follow?_cons followed
    have made := made_of_step stepped
    have survives : ∀ worker, move ≠ .lose worker := by
      rintro worker rfl
      exact survive worker List.mem_cons_self
    obtain ⟨distinct, fresh⟩ :=
      ih (fun worker member => survive worker (List.mem_cons_of_mem _ member))
        (accounted.made survives made) followed
    have parts : state.outcomes limit (move :: moves) =
        state.brought move ++ next.outcomes limit moves := gather_cons stepped moves
    rw [parts]
    refine ⟨?_, ?_⟩
    · rw [List.map_append]
      refine List.nodup_append'.mpr ⟨?_, distinct, ?_⟩
      · -- A move brings one result at most.
        cases move with
        | store => simp only [brought]; split <;> simp
        | look | claim | lose | tell | hear | abort => simp [brought]
      · intro index now later
        obtain ⟨⟨_, result⟩, brought, rfl⟩ := List.mem_map.mp now
        obtain ⟨outcome, member, same⟩ := List.mem_map.mp later
        -- What came in now is there, so it does not come in again.
        have found := (accounted.filled_iff made).mpr (Or.inr brought)
        have missing := fresh outcome member
        rw [same, found] at missing
        cases missing
    · intro outcome member
      rcases List.mem_append.mp member with now | later
      · exact accounted.missing_of_brought now
      · exact accounted.missing_of_made made (fresh outcome later)

/-- Once everything has settled, what was reported is what came in. -/
theorem reported_perm_outcomes {wanted : Nat} {moves : List Move}
    (survive : ∀ worker, .lose worker ∉ moves)
    (followed : (initial wanted tests).follow? limit moves = some state)
    (settled : state.settled = true) :
    state.reported.Perm ((initial wanted tests).outcomes limit moves) := by
  have start := accounted_initial wanted tests
  have accounted := start.follow survive followed
  -- Neither list holds a pair twice, so it is enough that they hold the same pairs.
  have reported : state.reported.Nodup := by
    refine List.Nodup.of_map Prod.fst (List.nodup_iff_count.mpr ?_)
    intro index
    rw [accounted.count_reported settled index]
    split <;> omega
  have came := (start.outcomes_fresh survive followed).1.of_map
  refine (List.perm_ext_iff_of_nodup reported came).mpr ?_
  rintro ⟨index, result⟩
  -- No slot is filled before the first move, so every result that is held was brought by one.
  have empty : (initial wanted tests).slots[index]? ≠ some (some result) := by
    simp [initial, List.getElem?_replicate]
  rw [accounted.mem_reported_iff settled, start.held_iff survive followed]
  exact or_iff_right empty

/-- Once everything has settled, a result has come in for every test that the cursor has
passed, and for no other one. -/
theorem outcomes_perm_range {wanted : Nat} {moves : List Move}
    (survive : ∀ worker, .lose worker ∉ moves)
    (followed : (initial wanted tests).follow? limit moves = some state)
    (settled : state.settled = true) :
    (((initial wanted tests).outcomes limit moves).map Prod.fst).Perm
      (List.range (min state.cursor tests)) := by
  have accounted := (accounted_initial wanted tests).follow survive followed
  have came := reported_perm_outcomes survive followed settled
  refine (came.symm.map Prod.fst).trans (List.perm_iff_count.mpr ?_)
  intro index
  rw [accounted.count_reported settled, List.count_range]

/-- Once everything has settled, the tests that are left are the last ones. -/
theorem leftOver_eq (accounted : Accounted tests state) (settled : state.settled = true) :
    state.leftOver =
      List.range' (min state.cursor tests) (tests - min state.cursor tests) := by
  have parts : List.range tests = List.range (min state.cursor tests) ++
      List.range' (min state.cursor tests) (tests - min state.cursor tests) := by
    have joined := List.range'_append_1 (s := 0) (m := min state.cursor tests)
      (n := tests - min state.cursor tests)
    rw [Nat.zero_add, Nat.add_sub_cancel' (Nat.min_le_right ..)] at joined
    rw [List.range_eq_range', List.range_eq_range', joined]
  -- Behind a settled run the slots in front of the cursor are filled, and those behind it are not.
  have taken : ∀ index ∈ List.range (min state.cursor tests),
      ¬ (state.slots[index]? == some none) = true := by
    intro index member
    have below := List.mem_range.mp member
    rw [beq_iff_eq, accounted.missing_iff settled (by omega)]
    omega
  have missing : ∀ index ∈ List.range' (min state.cursor tests)
      (tests - min state.cursor tests), (state.slots[index]? == some none) = true := by
    intro index member
    have bounds := List.mem_range'_1.mp member
    rw [beq_iff_eq, accounted.missing_iff settled (by omega)]
    omega
  rw [leftOver, accounted.size, parts, List.filter_append, List.filter_eq_nil_iff.mpr taken,
    List.filter_eq_self.mpr missing, List.nil_append]

end Accounted

/-! ### The end of a run -/

/-- Why tests are skipped in a run with so many failures. -/
def skippedFor (limit : Option Nat) (failures : Nat) : String :=
  if tooMany limit failures then "stopped after " ++ toString failures ++ " failures"
  else "run interrupted"

theorem skipReason_eq {limit : Option Nat} {wanted tests : Nat} {moves : List Move} {state : State}
    (survive : ∀ worker, .lose worker ∉ moves)
    (followed : (initial wanted tests).follow? limit moves = some state)
    (settled : state.settled = true) :
    state.skipReason =
      skippedFor limit (((initial wanted tests).outcomes limit moves).countP failing) := by
  have counted := counted_of_followed followed
  have came := Accounted.reported_perm_outcomes survive followed settled
  rw [skipReason, counted.stopped, counted.failures, came.countP_eq failing, skippedFor]

/-- However the workers, the listener and those who raise the flag take turns, the tests that
have been handed over are at any time the first ones of the list. At the end of a run in which
no worker is lost, a result has come in for each of these, and every other test is skipped,
which is reported behind all results and in the order of the list. No test is skipped if the
flag, which never goes down, is not up. Tests are skipped because of failures if there are
any and as many as the limit says, and then their reason names the number of all failures. -/
theorem evaluates_prefix_then_skips (limit : Option Nat) (wanted tests : Nat) (moves : List Move)
    (state : State) (survive : ∀ worker, .lose worker ∉ moves)
    (followed : (initial wanted tests).follow? limit moves = some state) :
    ∃ count ≤ tests, (initial wanted tests).evaluated limit moves = List.range count ∧
      (state.settled = true →
        (((initial wanted tests).outcomes limit moves).map Prod.fst).Perm (List.range count) ∧
        (state.aborted = false → count = tests) ∧
        ∃ skipped : TestResult,
          skipped = .ofReason .skipped
            (skippedFor limit (((initial wanted tests).outcomes limit moves).countP failing)) ∧
          (∀ index, count ≤ index → index < tests →
            state.close.slots[index]? = some (some skipped)) ∧
          ∃ results : List (Nat × TestResult),
            results.Perm ((initial wanted tests).outcomes limit moves) ∧
            state.close.reported =
              results ++ (List.range' count (tests - count)).map fun index => (index, skipped)) := by
  have accounted := (accounted_initial wanted tests).follow survive followed
  refine ⟨min state.cursor tests, Nat.min_le_right .., evaluated_initial followed, ?_⟩
  intro settled
  have came := Accounted.reported_perm_outcomes survive followed settled
  have reason := skipReason_eq survive followed settled
  refine ⟨?_, ?_, .ofReason .skipped state.skipReason, by rw [reason], ?_, state.reported, came, ?_⟩
  · exact Accounted.outcomes_perm_range survive followed settled
  -- Workers that leave without the flag have come to the end of the list.
  · intro down
    have all := (exhausted survive followed settled).resolve_left (by simp [down])
    omega
  -- The slots behind the cursor are empty, so closing the run fills them.
  · intro index behind below
    have missing := (accounted.missing_iff settled below).mpr (by omega)
    rw [close_slots, List.getElem?_map, getElem?_finalResults.mpr ⟨none, missing, rfl⟩]
    rfl
  · rw [close, accounted.leftOver_eq settled]

/-- Two tests are with the workers when the first of them fails, and the second fails, too. -/
def draining : List Move :=
  [.look 0, .look 1, .claim 0, .claim 1, .store 0 { kind := .fail }, .tell 0, .hear, .look 0,
    .store 1 { kind := .timeout }, .tell 1, .hear, .look 1]

theorem draining_skips :
    ∃ state, (initial 2 4).follow? (some 1) draining = some state ∧ state.settled = true ∧
      ∃ count ≤ 4, (initial 2 4).evaluated (some 1) draining = List.range count ∧ count = 2 ∧
        ∃ skipped, skipped = TestResult.ofReason .skipped "stopped after 2 failures" ∧
          state.close.slots[3]? = some (some skipped) ∧
          ∃ results, state.close.reported = results ++ [(2, skipped), (3, skipped)] := by
  have survive : ∀ worker, .lose worker ∉ draining := by simp [draining]
  have followed : ((initial 2 4).follow? (some 1) draining).isSome := by decide
  obtain ⟨state, followed⟩ := Option.isSome_iff_exists.mp followed
  have settled : ((initial 2 4).follow? (some 1) draining).all State.settled := by decide
  rw [followed] at settled
  obtain ⟨count, bound, evaluated, ending⟩ :=
    evaluates_prefix_then_skips (some 1) 2 4 draining state survive followed
  obtain ⟨-, -, skipped, reason, slots, results, -, reported⟩ := ending settled
  have two : count = 2 := by
    have handed : ((initial 2 4).evaluated (some 1) draining).length = 2 := by decide
    rwa [evaluated, List.length_range] at handed
  subst two
  refine ⟨state, followed, settled, 2, bound, evaluated, rfl, skipped, ?_, slots 3 (by decide)
    (by decide), results, reported⟩
  rw [reason]
  decide +kernel

end State

end SuiteRunner.Run
