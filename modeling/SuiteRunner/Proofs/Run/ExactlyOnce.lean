import SuiteRunner.Proofs.Run.Schedule
import Mathlib.Data.List.Nodup

/-!
# Every test is settled exactly once

A test that the cursor has passed is in exactly one place: with a worker that evaluates it,
with a worker that has stored its result, on the way to the listener, or among what was
reported. It has a result in all of these places but the first. So when all workers have
left and everything told has been heard, the tests that the cursor has passed have been
reported, each once and with the result it holds, and the others have none and are left
for the end of the run.
-/

namespace SuiteRunner.Run

/-! ### Counting workers -/

theorem count_set_workers {workers : List Worker} {worker : Nat} {before : Worker}
    (found : workers[worker]? = some before) (after other : Worker) :
    (workers.set worker after).count other + (if before = other then 1 else 0) =
      workers.count other + (if after = other then 1 else 0) := by
  obtain ⟨bound, equal⟩ := List.getElem?_eq_some_iff.mp found
  rw [List.count_set bound, equal]
  have present : before = other → 0 < workers.count other := by
    rintro rfl
    exact List.count_pos_iff.mpr (List.mem_of_getElem? found)
  by_cases same : before = other <;> by_cases same' : after = other <;>
    simp [same, same'] <;> have := present same <;> omega

/-- How many tests with this index a worker has at hand. -/
def Worker.holding : Worker → Nat → Nat
  | .busy taken, index | .stored taken, index => if taken = index then 1 else 0
  | .free, _ | .cleared, _ | .gone, _ => 0

namespace State

/-! ### Where a test is -/

/-- In how many places a test is that the cursor has passed. -/
def places (state : State) (index : Nat) : Nat :=
  state.workers.count (.busy index) + state.workers.count (.stored index) +
    state.channel.count index + (state.reported.map Prod.fst).count index

/-- A worker that changes its phase takes along what it holds. -/
theorem places_setWorker {state : State} {worker : Nat} {before : Worker}
    (found : state.workers[worker]? = some before) (after : Worker) (index : Nat) :
    (state.setWorker worker after).places index + before.holding index =
      state.places index + after.holding index := by
  have busy := count_set_workers found after (.busy index)
  have stored := count_set_workers found after (.stored index)
  simp only [places, setWorker]
  cases before <;> cases after <;> simp [Worker.holding] at busy stored ⊢ <;> omega

theorem busy_setWorker {state : State} {worker index : Nat} {before after : Worker}
    (found : state.workers[worker]? = some before)
    (idle : before ≠ .busy index) (idle' : after ≠ .busy index) :
    (state.setWorker worker after).workers.count (.busy index) =
      state.workers.count (.busy index) := by
  have counted := count_set_workers found after (.busy index)
  simpa [idle, idle', setWorker] using counted

/-- All tests are accounted for. -/
structure Accounted (tests : Nat) (state : State) : Prop where
  size : state.slots.length = tests
  passed : ∀ index, state.places index = if index < min state.cursor tests then 1 else 0
  /-- Only tests that are not evaluated yet have no result. -/
  open_iff : ∀ index < tests, state.slots[index]? = some none ↔
    state.cursor ≤ index ∨ 0 < state.workers.count (.busy index)
  held : ∀ index result, (index, result) ∈ state.reported →
    state.slots[index]? = some (some result)

theorem accounted_initial (wanted tests : Nat) : Accounted tests (initial wanted tests) := by
  refine ⟨by simp [initial], ?_, ?_, ?_⟩
  · intro index
    simp [places, initial, List.count_replicate]
  · intro index below
    simp [initial, below]
  · intro index result member
    simp [initial] at member

namespace Accounted

variable {limit : Option Nat} {tests : Nat} {state : State}

theorem passed_of_present (accounted : Accounted tests state) {index : Nat}
    (present : 0 < state.places index) :
    index < min state.cursor tests ∧ state.places index = 1 := by
  have passed := accounted.passed index
  split at passed
  next below => exact ⟨below, passed⟩
  next => omega

theorem busy_places {worker index : Nat} (busy : state.workers[worker]? = some (.busy index)) :
    0 < state.workers.count (.busy index) :=
  List.count_pos_iff.mpr (List.mem_of_getElem? busy)

theorem places_of_busy {index : Nat} (present : 0 < state.workers.count (.busy index)) :
    0 < state.places index := by
  unfold places
  omega

/-- Workers without a test may change to another phase without one. -/
theorem setWorker (accounted : Accounted tests state) {worker : Nat} {before : Worker}
    (found : state.workers[worker]? = some before) (after : Worker)
    (idle : ∀ index, before.holding index = 0) (idle' : ∀ index, after.holding index = 0) :
    Accounted tests (state.setWorker worker after) := by
  have same (index : Nat) : (state.setWorker worker after).workers.count (.busy index) =
      state.workers.count (.busy index) := by
    apply busy_setWorker found
    · rintro rfl; simpa [Worker.holding] using idle index
    · rintro rfl; simpa [Worker.holding] using idle' index
  refine ⟨accounted.size, ?_, ?_, accounted.held⟩
  -- Neither phase holds a test, so nothing moves from one place to another.
  · intro index
    have moved := places_setWorker found after index
    rw [idle, idle'] at moved
    exact moved.trans (accounted.passed index)
  · intro index below
    rw [same index]
    exact accounted.open_iff index below

/-- The next test goes to a worker. -/
theorem take (accounted : Accounted tests state) {worker : Nat}
    (cleared : state.workers[worker]? = some .cleared) (left : state.cursor < state.slots.length) :
    Accounted tests
      { state.setWorker worker (.busy state.cursor) with cursor := state.cursor + 1 } := by
  have size := accounted.size
  refine ⟨size, ?_, ?_, accounted.held⟩
  -- Only the test at the cursor comes to be in a place, with the worker that takes it.
  · intro index
    have moved := places_setWorker cleared (.busy state.cursor) index
    have passed := accounted.passed index
    simp only [Worker.holding] at moved
    change (state.setWorker worker (.busy state.cursor)).places index =
      if index < min (state.cursor + 1) tests then 1 else 0
    split at moved <;> split at passed <;> split <;> omega
  -- That test has no result yet, and is open now because of this worker.
  · intro index below
    have counted := count_set_workers cleared (.busy state.cursor) (.busy index)
    have closed := accounted.open_iff index below
    simp only [Worker.busy.injEq, reduceCtorEq, if_false] at counted
    simp only [State.setWorker, closed]
    split at counted <;> omega

/-- A worker finds no test left. -/
theorem miss (accounted : Accounted tests state) (noneLeft : state.slots.length ≤ state.cursor) :
    Accounted tests { state with cursor := state.cursor + 1 } := by
  have size := accounted.size
  refine ⟨size, ?_, ?_, accounted.held⟩
  · intro index
    have passed := accounted.passed index
    change state.places index = if index < min (state.cursor + 1) tests then 1 else 0
    split at passed <;> split <;> omega
  · intro index below
    have closed := accounted.open_iff index below
    simp only [closed]
    omega

/-- The result of a test that was evaluated is the first one that it gets. -/
theorem store (accounted : Accounted tests state) {worker index : Nat} (result : TestResult)
    (busy : state.workers[worker]? = some (.busy index)) :
    Accounted tests { state.setWorker worker (.stored index) with
      slots := state.slots.modify index (Slot.store · result) } := by
  refine ⟨by simpa [State.setWorker] using accounted.size, ?_, ?_, ?_⟩
  -- The test only moves from one place of its worker to another.
  · intro other
    have moved := places_setWorker busy (.stored index) other
    simp only [Worker.holding] at moved
    change (state.setWorker worker (.stored index)).places other = _
    exact (Nat.add_right_cancel moved).trans (accounted.passed other)
  · intro other below
    have counted := count_set_workers busy (.stored index) (.busy other)
    have closed := accounted.open_iff other below
    simp only [Worker.busy.injEq, reduceCtorEq, if_false] at counted
    simp only [State.setWorker, List.getElem?_modify, Option.map_eq_map]
    by_cases same : index = other
    · subst same
      -- No other worker has this test, so it is not open any more.
      have present := busy_places busy
      obtain ⟨taken, once⟩ := accounted.passed_of_present (places_of_busy present)
      unfold places at once
      have released : (state.workers.set worker (.stored index)).count (.busy index) = 0 := by
        simp only [if_true] at counted
        omega
      simp only [closed.mpr (Or.inr present), released, if_true, Option.map_some,
        Slot.store_empty, reduceCtorEq, Option.some.injEq, false_iff]
      omega
    · simp only [same, if_false, Nat.add_zero] at counted
      simpa only [same, if_false, counted, Option.map_id'] using closed
  · intro other earlier member
    have held := accounted.held other earlier member
    simp only [List.getElem?_modify, Option.map_eq_map, held]
    by_cases same : index = other <;> simp [same]

/-- A worker tells that it has stored a result. -/
theorem tell (accounted : Accounted tests state) {worker index : Nat}
    (stored : state.workers[worker]? = some (.stored index)) :
    Accounted tests { state.setWorker worker .free with
      channel := state.channel ++ [index] } := by
  refine ⟨accounted.size, ?_, ?_, accounted.held⟩
  -- What the worker lets go of is in the channel now.
  · intro other
    refine Eq.trans ?_ (accounted.passed other)
    have moved := places_setWorker stored .free other
    simp only [Worker.holding, places, State.setWorker] at moved
    simp only [places, State.setWorker, List.count_append, List.count_singleton, beq_iff_eq]
    omega
  · intro other below
    have same : (state.setWorker worker .free).workers.count (.busy other) =
        state.workers.count (.busy other) :=
      busy_setWorker stored (by simp) (by simp)
    simp only [same]
    exact accounted.open_iff other below

/-- A test that was told of has its result. -/
theorem exists_result (accounted : Accounted tests state) {index : Nat} {channel : List Nat}
    (told : state.channel = index :: channel) :
    ∃ result, state.slots[index]? = some (some result) := by
  have counted : 0 < state.channel.count index := by simp [told]
  have present : 0 < state.places index := by
    unfold places
    omega
  obtain ⟨below, once⟩ := accounted.passed_of_present present
  have bound : index < state.slots.length := by
    have size := accounted.size
    omega
  have closed := accounted.open_iff index (by omega)
  cases held : state.slots[index] with
  | some result => exact ⟨result, by simp [bound, held]⟩
  | none =>
    have missing : state.slots[index]? = some none := by simp [bound, held]
    -- An open test is ahead of the cursor or with a worker, and then it is not in the channel.
    rcases closed.mp missing with ahead | busy
    · omega
    · unfold places at once
      omega

theorem hear (accounted : Accounted tests state) {index : Nat} {channel : List Nat}
    {result : TestResult} (told : state.channel = index :: channel)
    (found : state.slots[index]? = some (some result)) :
    Accounted tests (note limit index result { state with channel }) := by
  refine ⟨by simpa using accounted.size, ?_, ?_, ?_⟩
  -- The test leaves the channel and joins what was reported, so it is in one place as before.
  · intro other
    have passed := accounted.passed other
    simp only [places, told, List.count_cons] at passed
    simp only [places, note_workers, note_channel, note_reported, note_cursor, List.map_append,
      List.map_cons, List.map_nil, List.count_append, List.count_cons, List.count_nil]
    omega
  · intro other below
    simpa using accounted.open_iff other below
  · intro other earlier member
    simp only [note_reported, List.mem_append, List.mem_singleton, Prod.mk.injEq] at member
    rcases member with member | ⟨rfl, rfl⟩
    · simpa using accounted.held other earlier member
    · simpa using found

/-- Every move keeps all tests accounted for, unless it loses a worker. -/
theorem made (accounted : Accounted tests state) {next : State} {move : Move}
    (survives : ∀ worker, move ≠ .lose worker) (made : Made limit state move next) :
    Accounted tests next := by
  -- Every move but a loss hands a test on from one place of the account to the next, or touches no
  -- test.
  cases made with
  | leave free => exact accounted.setWorker free .gone (fun _ => rfl) (fun _ => rfl)
  | clear free => exact accounted.setWorker free .cleared (fun _ => rfl) (fun _ => rfl)
  | take cleared left => exact accounted.take cleared left
  | miss cleared noneLeft =>
    have left := accounted.setWorker cleared .gone (fun _ => rfl) (fun _ => rfl)
    exact left.miss noneLeft
  | store result busy => exact accounted.store result busy
  | lose => exact absurd rfl (survives _)
  | tell stored => exact accounted.tell stored
  | hear told found => exact accounted.hear told found
  | ignore told nothing =>
    obtain ⟨result, found⟩ := accounted.exists_result told
    exact absurd found (nothing result)
  | abort => exact ⟨accounted.size, accounted.passed, accounted.open_iff, accounted.held⟩

/-- Moves that lose no worker keep all tests accounted for. -/
theorem follow {final : State} {moves : List Move} (survive : ∀ worker, .lose worker ∉ moves)
    (accounted : Accounted tests state) (followed : state.follow? limit moves = some final) :
    Accounted tests final := by
  refine follow?_keeps (Accounted tests) ?_ accounted followed
  intro state next move member accounted made
  refine accounted.made ?_ made
  rintro worker rfl
  exact survive worker member

/-- A test has a result after a move if it had that result before or if the move brings it. -/
theorem filled_iff (accounted : Accounted tests state) {next : State} {move : Move}
    (made : Made limit state move next) {index : Nat} {result : TestResult} :
    next.slots[index]? = some (some result) ↔
      state.slots[index]? = some (some result) ∨ (index, result) ∈ state.brought move := by
  cases made with
  | @store worker taken stored busy =>
    -- The first result counts, so what is stored has to be the first.
    have present := busy_places busy
    have taken_lt := (accounted.passed_of_present (places_of_busy present)).1
    have missing : state.slots[taken]? = some none :=
      (accounted.open_iff taken (by omega)).mpr (Or.inr present)
    simp only [State.brought, busy, List.mem_singleton, Prod.mk.injEq, List.getElem?_modify,
      Option.map_eq_map]
    by_cases same : taken = index
    · subst same
      simp [missing, eq_comm]
    · simp [same, Ne.symm same]
  | leave | clear | take | miss | lose | tell | hear | ignore | abort =>
    simp [State.setWorker, State.brought]

/-- A test has a result after all moves if it had that result before or if one of them
brought it. -/
theorem held_iff {final : State} {moves : List Move} (survive : ∀ worker, .lose worker ∉ moves)
    (accounted : Accounted tests state) (followed : state.follow? limit moves = some final)
    {index : Nat} {result : TestResult} :
    final.slots[index]? = some (some result) ↔
      state.slots[index]? = some (some result) ∨
        (index, result) ∈ state.outcomes limit moves := by
  induction moves generalizing state with
  | nil =>
    cases followed
    simp [outcomes, gather]
  | cons move moves ih =>
    obtain ⟨next, stepped, followed⟩ := follow?_cons followed
    have made := made_of_step stepped
    have survives : ∀ worker, move ≠ .lose worker := by
      rintro worker rfl
      exact survive worker List.mem_cons_self
    -- What one more move brings is told by `filled_iff`, all the rest by the induction.
    have later := ih (fun worker member => survive worker (List.mem_cons_of_mem _ member))
      (accounted.made survives made) followed
    rw [later, accounted.filled_iff made, outcomes, outcomes, gather_cons stepped,
      List.mem_append, or_assoc]

end Accounted

/-! ### The end of a run -/

/-- What a test holds at the end of a run. -/
def finalResult (state : State) (slot : Slot) : TestResult :=
  slot.getD (.ofReason .skipped state.skipReason)

def finalResults (state : State) : List TestResult := state.slots.map state.finalResult

theorem close_slots (state : State) : state.close.slots = state.finalResults.map some := by
  simp only [close, finalResults, List.map_map]
  refine List.map_congr_left ?_
  intro slot _
  cases slot <;> rfl

theorem getElem?_finalResults {state : State} {index : Nat} {result : TestResult} :
    state.finalResults[index]? = some result ↔
      ∃ slot, state.slots[index]? = some slot ∧ state.finalResult slot = result := by
  simp only [finalResults, List.getElem?_map, Option.map_eq_some_iff]

theorem mem_leftOver {state : State} {index : Nat} :
    index ∈ state.leftOver ↔ state.slots[index]? = some none := by
  simp only [leftOver, List.mem_filter, List.mem_range, beq_iff_eq, and_iff_right_iff_imp]
  exact fun missing => (List.getElem?_eq_some_iff.mp missing).1

theorem mem_mapIdx_mk {results : List TestResult} {index : Nat} {result : TestResult} :
    (index, result) ∈ results.mapIdx Prod.mk ↔ results[index]? = some result := by
  simp only [List.mem_mapIdx, Prod.mk.injEq, List.getElem?_eq_some_iff]
  constructor
  · rintro ⟨_, bound, rfl, found⟩
    exact ⟨bound, found⟩
  · rintro ⟨bound, found⟩
    exact ⟨index, bound, rfl, found⟩

theorem nodup_mapIdx_mk (results : List TestResult) : (results.mapIdx Prod.mk).Nodup := by
  refine List.Nodup.of_map Prod.fst ?_
  have indices : (results.mapIdx Prod.mk).map Prod.fst = List.range results.length :=
    List.ext_getElem (by simp) (by simp)
  rw [indices]
  exact List.nodup_range

namespace Accounted

variable {tests : Nat} {state : State}

theorem settled_places (settled : state.settled = true) (index : Nat) :
    state.workers.count (.busy index) = 0 ∧ state.workers.count (.stored index) = 0 ∧
      state.channel.count index = 0 := by
  simp only [State.settled, Bool.and_eq_true, List.all_eq_true, beq_iff_eq,
    List.isEmpty_iff] at settled
  obtain ⟨gone, heard⟩ := settled
  refine ⟨List.count_eq_zero.mpr ?_, List.count_eq_zero.mpr ?_, by simp [heard]⟩
  · intro member
    cases gone _ member
  · intro member
    cases gone _ member

/-- Once everything has settled, a test that the cursor has passed has been reported. -/
theorem count_reported (accounted : Accounted tests state) (settled : state.settled = true)
    (index : Nat) :
    (state.reported.map Prod.fst).count index =
      if index < min state.cursor tests then 1 else 0 := by
  obtain ⟨busy, stored, told⟩ := settled_places settled index
  have passed := accounted.passed index
  rwa [places, busy, stored, told, Nat.zero_add] at passed

/-- Once everything has settled, the tests without a result are those never taken. -/
theorem missing_iff (accounted : Accounted tests state) (settled : state.settled = true)
    {index : Nat} (below : index < tests) :
    state.slots[index]? = some none ↔ state.cursor ≤ index := by
  rw [accounted.open_iff index below, (settled_places settled index).1]
  simp

/-- Once everything has settled, all results have been reported. -/
theorem mem_reported_iff (accounted : Accounted tests state) (settled : state.settled = true)
    {index : Nat} {result : TestResult} :
    (index, result) ∈ state.reported ↔ state.slots[index]? = some (some result) := by
  constructor
  · exact accounted.held index result
  · intro found
    -- A test with a result was taken, so it was reported, and with what it holds.
    have below : index < tests := accounted.size ▸ (List.getElem?_eq_some_iff.mp found).1
    have taken : index < min state.cursor tests := by
      have missing := accounted.missing_iff settled below
      rw [found] at missing
      simp at missing
      omega
    have counted := accounted.count_reported settled index
    rw [if_pos taken] at counted
    have member : index ∈ state.reported.map Prod.fst := List.count_pos_iff.mp (by omega)
    obtain ⟨⟨_, other⟩, listed, rfl⟩ := List.mem_map.mp member
    have same := accounted.held _ other listed
    rw [found] at same
    cases same
    exact listed

theorem nodup_close (accounted : Accounted tests state) (settled : state.settled = true) :
    state.close.reported.Nodup := by
  refine List.Nodup.of_map Prod.fst ?_
  have left : (state.leftOver.map fun index =>
      (index, TestResult.ofReason .skipped state.skipReason)).map Prod.fst = state.leftOver := by
    simp [Function.comp_def]
  rw [close, List.map_append, left]
  refine List.nodup_append'.mpr ⟨?_, List.nodup_range.filter _, ?_⟩
  -- Once all is settled, an index has no place left but among the reported ones.
  · refine List.nodup_iff_count.mpr ?_
    intro index
    rw [accounted.count_reported settled index]
    split <;> omega
  · intro index member missing
    -- What was reported has a result, what is left has none.
    obtain ⟨⟨_, result⟩, listed, rfl⟩ := List.mem_map.mp member
    have found := accounted.held _ result listed
    rw [mem_leftOver.mp missing] at found
    cases found

/-- At the end of a run every test has been reported once, with the result that it holds. -/
theorem close_reported (accounted : Accounted tests state) (settled : state.settled = true) :
    state.close.reported.Perm (state.finalResults.mapIdx Prod.mk) := by
  -- Neither list has a pair twice, so it is enough that they have the same pairs.
  refine (List.perm_ext_iff_of_nodup (accounted.nodup_close settled) (nodup_mapIdx_mk _)).mpr ?_
  rintro ⟨index, result⟩
  rw [mem_mapIdx_mk, getElem?_finalResults, close, List.mem_append, List.mem_map,
    accounted.mem_reported_iff settled]
  constructor
  · rintro (found | ⟨_, missing, same⟩)
    · exact ⟨some result, found, rfl⟩
    · cases same
      exact ⟨none, mem_leftOver.mp missing, rfl⟩
  · rintro ⟨slot, found, same⟩
    cases slot with
    | some _ => cases same; exact Or.inl found
    | none => cases same; exact Or.inr ⟨index, mem_leftOver.mpr found, rfl⟩

end Accounted

end State

/-! ### The summary -/

theorem lookup_positive {α : Type} [BEq α] [LawfulBEq α] (count : α → Nat) {keys : List α}
    (key : α) :
    (((keys.map fun key => (key, count key)).filter (0 < ·.2)).lookup key).getD 0 =
      if keys.contains key then count key else 0 := by
  induction keys with
  | nil => rfl
  | cons head keys ih =>
    rw [List.map_cons, List.filter_cons]
    cases same : key == head with
    | true =>
      rw [eq_of_beq same]
      by_cases positive : 0 < count head
      · simp [positive]
      · -- The key was dropped, and a later occurrence of it is dropped, too.
        rw [eq_of_beq same] at ih
        have zero : count head = 0 := by omega
        simp only [zero, List.contains_cons, ite_self] at ih ⊢
        simpa using ih
    | false =>
      rw [List.contains_cons, same, Bool.false_or, ← ih]
      split
      next => rw [List.lookup_cons, same]
      next => rfl

/-- A summary counts every kind. -/
theorem Summary.count_ofKinds (kinds : List ResultKind) (duration : Duration) (kind : ResultKind) :
    (Summary.ofKinds kinds duration).count kind = kinds.count kind := by
  have known : ResultKind.all.contains kind = true := by cases kind <;> rfl
  rw [Summary.count, Summary.ofKinds, lookup_positive (fun kind => kinds.count kind), if_pos known]

namespace State

/-- However the workers, the listener and those who raise the flag take turns, at the end of
a run in which no worker is lost every test has been evaluated at most once, holds one
result, which is that of its evaluation if it was evaluated, and has been reported once,
with that result; and the summary counts the results that the tests hold. -/
theorem reported_exactly_once (limit : Option Nat) (wanted tests : Nat) (moves : List Move)
    (state : State) (duration : Duration) (survive : ∀ worker, .lose worker ∉ moves)
    (followed : (initial wanted tests).follow? limit moves = some state)
    (settled : state.settled = true) :
    ((initial wanted tests).evaluated limit moves).Nodup ∧
      (∀ index ∈ (initial wanted tests).evaluated limit moves, index < tests) ∧
      ∃ results : List TestResult,
        results.length = tests ∧ state.close.slots = results.map some ∧
        (∀ index result, (index, result) ∈ (initial wanted tests).outcomes limit moves →
          results[index]? = some result) ∧
        state.close.reported.Perm (results.mapIdx Prod.mk) ∧
        (state.close.summary duration).total = tests ∧
        ∀ kind, (state.close.summary duration).count kind =
          (results.map TestResult.kind).count kind := by
  have start := accounted_initial wanted tests
  have accounted := start.follow survive followed
  -- The cursor hands out the indices in order, so the evaluated tests are the first ones.
  have evaluated : (initial wanted tests).evaluated limit moves =
      List.range (min state.cursor tests) := by
    have passed := evaluated_eq_range followed
    simpa [initial] using passed
  have reported := accounted.close_reported settled
  -- The summary counts the reported kinds, in whatever order they were reported.
  have kinds : (state.close.reported.map (·.2.kind)).Perm
      (state.finalResults.map TestResult.kind) := by
    have mapped := reported.map (·.2.kind)
    have same : (state.finalResults.mapIdx Prod.mk).map (·.2.kind) =
        state.finalResults.map TestResult.kind :=
      List.ext_getElem (by simp) (by simp)
    rwa [same] at mapped
  have size : state.finalResults.length = tests := by
    simpa [finalResults] using accounted.size
  refine ⟨evaluated ▸ List.nodup_range, ?_, state.finalResults, size, close_slots state, ?_,
    reported, ?_, ?_⟩
  · intro index member
    rw [evaluated, List.mem_range] at member
    omega
  · intro index result brought
    have held := (start.held_iff survive followed).mpr (Or.inr brought)
    exact getElem?_finalResults.mpr ⟨some result, held, rfl⟩
  · have counted := kinds.length_eq
    rwa [List.length_map TestResult.kind, size] at counted
  · intro kind
    rw [summary, Summary.count_ofKinds]
    exact kinds.count_eq kind

/-- Both workers find the flag down, the flag goes up, and only then one of them takes its
test. -/
def racing : List Move :=
  [.look 0, .look 1, .claim 0, .abort, .claim 1, .store 1 { kind := .fail }, .tell 1,
    .store 0 { kind := .pass }, .look 1, .hear, .tell 0, .look 0, .hear]

theorem racing_reported_once :
    ∃ state, (initial 2 3).follow? none racing = some state ∧ state.settled = true ∧
      ((initial 2 3).evaluated none racing).Nodup ∧
      state.close.reported.map (fun report => (report.1, report.2.kind)) =
        [(1, .fail), (0, .pass), (2, .skipped)] ∧
      ∃ results : List TestResult, state.close.slots = results.map some ∧
        state.close.reported.Perm (results.mapIdx Prod.mk) := by
  have survive : ∀ worker, .lose worker ∉ racing := by simp [racing]
  have followed : ((initial 2 3).follow? none racing).isSome := by decide
  obtain ⟨state, followed⟩ := Option.isSome_iff_exists.mp followed
  have settled : ((initial 2 3).follow? none racing).all State.settled := by decide
  rw [followed] at settled
  obtain ⟨distinct, -, results, -, slots, -, reported, -, -⟩ :=
    reported_exactly_once none 2 3 racing state .zero survive followed settled
  refine ⟨state, followed, settled, distinct, ?_, results, slots, reported⟩
  cases followed
  decide

end State

end SuiteRunner.Run
