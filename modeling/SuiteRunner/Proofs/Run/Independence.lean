import SuiteRunner.Run.Script
import SuiteRunner.Proofs.Run.Passing
import SuiteRunner.Proofs.Run.Stopping

/-!
# Results do not depend on the schedule

An executor is steady for tests if what it answers depends on the request only and if it makes
and removes none of the tools and libraries that these tests look for. Then a test comes to
the same whenever it is evaluated. A run without a limit that nobody stops evaluates every
test once. So whatever the number of workers is and whatever turns they take, the reports are
those of the tests evaluated one after another, in some order, and the summary is the same.
-/

namespace SuiteRunner.Run

open Discovery

/-- A result apart from the time that it took. -/
def TestResult.untimed (result : TestResult) : TestResult := { result with elapsed := .zero }

section Steady

variable {σ : Type}

/-! ### Evaluation in another world -/

/-- The worlds that an executor may have made of a world by running requests. -/
inductive Executor.Leads (executor : Executor σ) (start : σ) : σ → Prop where
  | start : Leads executor start start
  | run {world : σ} (request : Request) (led : Leads executor start world) :
      Leads executor start (executor.run request world).2

/-- What an executor answers depends on the request only, and the tests find the same tools and
libraries whatever has been run. -/
structure Executor.Steady (executor : Executor σ) (tests : List TestCase) (start : σ) : Prop where
  answers : ∃ answer : Request → Except ExecError PipelineReport,
    ∀ request world, executor.Leads start world →
      (executor.run request world).1 = .ofAnswer (answer request)
  tools : ∀ test ∈ tests, ∀ world, executor.Leads start world →
    test.config.places.tool (executor.files world) =
      test.config.places.tool (executor.files start)
  libraries : ∀ test ∈ tests, ∀ world, executor.Leads start world →
    test.config.places.library (executor.files world) =
      test.config.places.library (executor.files start)

/-- A test is planned by its own data and by the tools and libraries that are found. -/
theorem plan_congr {tree tree' : Files.FileTree} (override : Option UInt64) {test : TestCase}
    (tools : test.config.places.tool tree = test.config.places.tool tree')
    (libraries : test.config.places.library tree = test.config.places.library tree') :
    plan tree override test = plan tree' override test := by
  simp only [plan, prepare, resolvedRules, tools, libraries]

theorem Attempt.ofAnswer_ne_lost (answer : Except ExecError PipelineReport) :
    ofAnswer answer ≠ .lost := by
  cases answer <;> simp [ofAnswer]

theorem conclude_isSome {config : Config.EffectiveConfig} {directives : Directive.TestDirectives}
    {attempt : Attempt} (survived : attempt ≠ .lost) :
    (conclude config directives attempt).isSome := by
  cases attempt with
  | lost => exact absurd rfl survived
  | refused | reported => rfl

theorem leads_evaluate {executor : Executor σ} {start world : σ} (override : Option UInt64)
    (test : TestCase) (led : executor.Leads start world) :
    executor.Leads start (evaluate executor override test world).2 := by
  cases planned : plan (executor.files world) override test with
  | settled result =>
    rw [evaluate_settled executor world planned]
    exact led
  | run directives request =>
    rw [evaluate_run executor world planned]
    exact led.run request

variable {executor : Executor σ} {tests : List TestCase} {start : σ}

namespace Executor.Steady

/-- A test comes to the same in all worlds. -/
theorem evaluate_eq (steady : executor.Steady tests start) (override : Option UInt64)
    {test : TestCase} (member : test ∈ tests) {world : σ} (led : executor.Leads start world) :
    (evaluate executor override test world).1 = (evaluate executor override test start).1 := by
  -- Requests are the same in both worlds, and so are the answers to them.
  have same : plan (executor.files world) override test =
      plan (executor.files start) override test :=
    plan_congr override (steady.tools test member world led)
      (steady.libraries test member world led)
  obtain ⟨answer, answers⟩ := steady.answers
  cases planned : plan (executor.files start) override test with
  | settled result =>
    rw [evaluate_settled executor start planned,
      evaluate_settled executor world (same.trans planned)]
  | run directives request =>
    rw [evaluate_run executor start planned, evaluate_run executor world (same.trans planned)]
    simp only [Prod.map, answers request world led, answers request start .start]

/-- Every test comes to a result. -/
theorem evaluate_isSome (steady : executor.Steady tests start) (override : Option UInt64)
    (test : TestCase) : (evaluate executor override test start).1.isSome := by
  obtain ⟨answer, answers⟩ := steady.answers
  cases planned : plan (executor.files start) override test with
  | settled result => rw [evaluate_settled executor start planned]; rfl
  | run directives request =>
    rw [evaluate_run executor start planned]
    simp only [Prod.map, answers request start .start]
    exact conclude_isSome (Attempt.ofAnswer_ne_lost _)

end Executor.Steady

/-! ### One after another -/

/-- What tests come to if they are evaluated one after another. -/
def evaluateAll (executor : Executor σ) (override : Option UInt64) :
    List TestCase → σ → List (Option TestResult) × σ
  | [], world => ([], world)
  | test :: tests, world =>
    let (result, world) := evaluate executor override test world
    let (results, world) := evaluateAll executor override tests world
    (result :: results, world)

theorem Executor.Steady.evaluateAll_eq (steady : executor.Steady tests start)
    (override : Option UInt64) {part : List TestCase} (among : part ⊆ tests) {world : σ}
    (led : executor.Leads start world) :
    (evaluateAll executor override part world).1 =
      part.map fun test => (evaluate executor override test start).1 := by
  induction part generalizing world with
  | nil => rfl
  | cons test part ih =>
    rw [List.cons_subset] at among
    have later := ih among.2 (leads_evaluate override test led)
    simp only [evaluateAll, List.map_cons, steady.evaluate_eq override among.1 led, later]

end Steady

/-! ### In any schedule -/

namespace State

/-- What a possible move tells of an evaluation: the test, and its result unless the worker
was lost. -/
def attempted (state : State) : Move → List (Nat × Option TestResult)
  | .store worker result =>
    match state.workers[worker]? with
    | some (.busy index) => [(index, some result)]
    | _ => []
  | .lose worker =>
    match state.workers[worker]? with
    | some (.busy index) => [(index, none)]
    | _ => []
  | _ => []

def attempts (limit : Option Nat) (state : State) (moves : List Move) :
    List (Nat × Option TestResult) :=
  state.gather attempted limit moves

theorem mem_gather_of_mem {α β : Type} {seen : State → Move → List α}
    {seen' : State → Move → List β} {f : α → β}
    (sees : ∀ state move item, item ∈ seen state move → f item ∈ seen' state move)
    {limit : Option Nat} {state : State} {moves : List Move} {item : α}
    (member : item ∈ state.gather seen limit moves) : f item ∈ state.gather seen' limit moves := by
  induction moves generalizing state with
  | nil => simp [gather] at member
  | cons move moves ih =>
    rw [gather, List.mem_append] at member ⊢
    refine member.imp (sees state move item) ?_
    cases state.step? limit move with
    | none => exact fun none => absurd none (by simp)
    | some next => exact ih

/-- Every result that came in was an attempt. -/
theorem mem_attempts_of_outcomes {limit : Option Nat} {state : State} {moves : List Move}
    {outcome : Nat × TestResult} (member : outcome ∈ state.outcomes limit moves) :
    (outcome.1, some outcome.2) ∈ state.attempts limit moves := by
  refine mem_gather_of_mem (f := fun outcome => (outcome.1, some outcome.2)) ?_ member
  rintro state move outcome brought
  cases move with
  | store worker result =>
    simp only [State.brought] at brought
    simp only [attempted]
    split at brought
    next index busy => simp_all
    next => simp at brought
  | look | claim | lose | tell | hear | abort => simp [State.brought] at brought

/-- What is reported at the end of a run, apart from the time that it took. -/
def untimedReports (state : State) : List (Nat × Option TestResult) :=
  state.close.reported.map fun report => (report.1, some report.2.untimed)

/-- Whoever is lost has tried to evaluate a test. -/
theorem exists_attempt_of_lose {limit : Option Nat} {state final : State} {moves : List Move}
    (followed : state.follow? limit moves = some final) {worker : Nat}
    (lost : .lose worker ∈ moves) : ∃ index, (index, none) ∈ state.attempts limit moves := by
  -- By induction on the moves: the loss is the first move, and then the worker was busy with a test
  -- that is now attempted without a result, or it comes later.
  induction moves generalizing state with
  | nil => simp at lost
  | cons move moves ih =>
    obtain ⟨next, stepped, followed⟩ := follow?_cons followed
    have parts : state.attempts limit (move :: moves) =
        state.attempted move ++ next.attempts limit moves := gather_cons stepped moves
    rw [parts]
    rcases List.mem_cons.mp lost with rfl | later
    · cases made_of_step stepped with
      | @lose _ index busy => exact ⟨index, List.mem_append_left _ (by simp [attempted, busy])⟩
    · obtain ⟨index, member⟩ := ih followed later
      exact ⟨index, List.mem_append_right _ member⟩

end State

/-- An attempt is the evaluation of a test of the list in some world, and takes any time. -/
def Executor.Evaluates {σ : Type} (executor : Executor σ) (override : Option UInt64)
    (tests : List TestCase) (start : σ) (attempt : Nat × Option TestResult) : Prop :=
  ∃ test world, tests[attempt.1]? = some test ∧ executor.Leads start world ∧
    (evaluate executor override test world).1.map TestResult.untimed =
      attempt.2.map TestResult.untimed

/-- A run of tests without a limit that nobody stops. -/
structure Executor.Performs {σ : Type} (executor : Executor σ) (override : Option UInt64)
    (tests : List TestCase) (start : σ) (wanted : Nat) (moves : List Move) (state : State) :
    Prop where
  followed : (State.initial wanted tests.length).follow? none moves = some state
  settled : state.settled = true
  unraised : .abort ∉ moves
  evaluated : ∀ attempt ∈ (State.initial wanted tests.length).attempts none moves,
    executor.Evaluates override tests start attempt

namespace Executor.Performs

variable {σ : Type} {executor : Executor σ} {override : Option UInt64} {tests : List TestCase}
  {start : σ} {wanted : Nat} {moves : List Move} {state : State}

theorem survive (performs : executor.Performs override tests start wanted moves state)
    (steady : executor.Steady tests start) (worker : Nat) : .lose worker ∉ moves := by
  intro lost
  -- A lost worker would be an evaluation without a result.
  obtain ⟨index, attempted⟩ := State.exists_attempt_of_lose performs.followed lost
  obtain ⟨test, world, found, led, came⟩ := performs.evaluated _ attempted
  have present := steady.evaluate_isSome override test
  rw [← steady.evaluate_eq override (List.mem_of_getElem? found) led] at present
  rw [Option.map_none, Option.map_eq_none_iff] at came
  simp [came] at present

/-- Nobody stops the run, so every test is taken. -/
theorem all_taken (performs : executor.Performs override tests start wanted moves state)
    (steady : executor.Steady tests start) : tests.length ≤ state.cursor := by
  refine (State.exhausted (performs.survive steady) performs.followed
    performs.settled).resolve_left ?_
  intro aborted
  -- Without a limit there are never too many failures.
  have stopped := State.stopped_of_aborted performs.unraised performs.followed aborted
  rw [(State.counted_of_followed performs.followed).stopped] at stopped
  simp [tooMany] at stopped

/-- A result that came in is that of the test, whenever that is evaluated. -/
theorem outcome_eq (performs : executor.Performs override tests start wanted moves state)
    (steady : executor.Steady tests start) {outcome : Nat × TestResult}
    (came : outcome ∈ (State.initial wanted tests.length).outcomes none moves) :
    (tests[outcome.1]?.bind fun test => (evaluate executor override test start).1).map
        TestResult.untimed = some outcome.2.untimed := by
  obtain ⟨test, world, found, led, same⟩ :=
    performs.evaluated _ (State.mem_attempts_of_outcomes came)
  rw [steady.evaluate_eq override (List.mem_of_getElem? found) led] at same
  rw [found, Option.bind_some, same, Option.map_some]

/-- The reports of such a run are those of the tests evaluated one after another. -/
theorem reported_perm (performs : executor.Performs override tests start wanted moves state)
    (steady : executor.Steady tests start) :
    state.untimedReports.Perm
      ((evaluateAll executor override tests start).1.mapIdx fun index result =>
        (index, result.map TestResult.untimed)) := by
  have survive := performs.survive steady
  have taken : min state.cursor tests.length = tests.length :=
    Nat.min_eq_right (performs.all_taken steady)
  have accounted :=
    (State.accounted_initial wanted tests.length).follow survive performs.followed
  have nothing_left : state.close.reported = state.reported := by
    rw [State.close, accounted.leftOver_eq performs.settled, taken, Nat.sub_self]
    exact List.append_nil _
  -- Reports are the results that came in, and these are of every test once.
  have came := State.Accounted.reported_perm_outcomes survive performs.followed performs.settled
  have keys := State.Accounted.outcomes_perm_range survive performs.followed performs.settled
  rw [taken] at keys
  -- What is reported of a test is told by its place in the list.
  let expected (index : Nat) : Nat × Option TestResult :=
    (index, (tests[index]?.bind fun test => (evaluate executor override test start).1).map
      TestResult.untimed)
  have results : ((State.initial wanted tests.length).outcomes none moves).map
      (fun outcome => (outcome.1, some outcome.2.untimed)) =
      (((State.initial wanted tests.length).outcomes none moves).map Prod.fst).map expected := by
    rw [List.map_map]
    refine List.map_congr_left ?_
    intro outcome member
    exact Prod.ext rfl (performs.outcome_eq steady member).symm
  have order : (List.range tests.length).map expected =
      (evaluateAll executor override tests start).1.mapIdx fun index result =>
        (index, result.map TestResult.untimed) := by
    rw [steady.evaluateAll_eq override (List.Subset.refl tests) .start]
    refine List.ext_getElem (by simp) ?_
    intro index bound _
    have below : index < tests.length := by simpa using bound
    simp [expected, below]
  rw [State.untimedReports, nothing_left, ← order]
  exact (came.map _).trans (results ▸ keys.map expected)

end Executor.Performs

/-! ### Any two runs -/

/-- A summary does not depend on the order in which results were reported. -/
theorem Summary.ofKinds_perm {kinds kinds' : List ResultKind} (same : kinds.Perm kinds')
    (duration : Duration) : ofKinds kinds duration = ofKinds kinds' duration := by
  simp only [ofKinds, same.length_eq, same.count_eq, same.any_eq, same.contains_eq]

theorem State.summary_perm {state state' : State}
    (same : state.untimedReports.Perm state'.untimedReports)
    (duration : Duration) :
    state.close.summary duration = state'.close.summary duration := by
  have kinds := same.filterMap fun report => report.2.map TestResult.kind
  simp only [State.untimedReports, List.filterMap_map, Function.comp_def, Option.map_some,
    List.filterMap_eq_map', TestResult.untimed] at kinds
  exact Summary.ofKinds_perm kinds duration

/-- Let an executor be steady for tests. Any two runs of them that have no limit and that nobody
stops, with any numbers of workers and whatever turns these take, report the same results of
the same tests, apart from the time they took, and these are the results of the tests evaluated
one after another. So their summaries count the same. -/
theorem reports_independent {σ : Type} (executor : Executor σ) (override : Option UInt64)
    (tests : List TestCase) (start : σ) (steady : executor.Steady tests start)
    (wanted wanted' : Nat) (moves moves' : List Move) (state state' : State)
    (performs : executor.Performs override tests start wanted moves state)
    (performs' : executor.Performs override tests start wanted' moves' state')
    (duration duration' : Duration) :
    state.untimedReports.Perm state'.untimedReports ∧
      state.untimedReports.Perm
        ((evaluateAll executor override tests start).1.mapIdx fun index result =>
          (index, result.map TestResult.untimed)) ∧
      (state.close.summary duration).counts = (state'.close.summary duration').counts ∧
      (state.close.summary duration).total = (state'.close.summary duration').total ∧
      (state.close.summary duration).success = (state'.close.summary duration').success ∧
      (state.close.summary duration).hasXpass = (state'.close.summary duration').hasXpass := by
  have first := performs.reported_perm steady
  have second := performs'.reported_perm steady
  have same := first.trans second.symm
  have summaries := State.summary_perm same duration'
  refine ⟨same, first, ?_⟩
  rw [← summaries]
  exact ⟨rfl, rfl, rfl, rfl⟩

/-! ### Scripts -/

namespace Script

theorem runCommands_answer (script : List ScriptEntry) (commands : List Command)
    (aborted aborted' : Bool) :
    (runCommands script aborted commands).1 = (runCommands script aborted' commands).1 := by
  -- The answers of a script do not depend on the abort flag, which changes from command to command
  -- and is left general.
  induction commands generalizing aborted aborted' with
  | nil => rfl
  | cons command commands ih =>
    simp only [runCommands]
    split
    next => rfl
    next =>
      split
      next => rfl
      next =>
        split
        next => rfl
        next => simp only [ih _ (aborted' || (entryFor script command.text).raisesAbort)]

/-- The world of a script keeps its files. -/
theorem files_of_leads {script : List ScriptEntry} {start world : World}
    (led : (executor script).Leads start world) : world.files = start.files := by
  induction led with
  | start => rfl
  | run request _ ih =>
    simp only [executor]
    split <;> exact ih

/-- Scripted executors are steady. -/
theorem steady (script : List ScriptEntry) (tests : List TestCase) (start : World) :
    (executor script).Steady tests start := by
  refine ⟨⟨fun request => (runCommands script false request.commands).1, ?_⟩, ?_, ?_⟩
  · intro request world _
    change _ = Attempt.ofAnswer (runCommands script false request.commands).1
    rw [runCommands_answer script request.commands false world.aborted]
    simp only [executor]
    split
    next report answer => rw [answer]; rfl
    next error answer => rw [answer]; rfl
  · intro test _ world led
    exact congrArg _ (files_of_leads led)
  · intro test _ world led
    exact congrArg _ (files_of_leads led)

end Script

/-- A test with one run-line. -/
def lineTest (name command : String) : TestCase :=
  { path := ⟨"/suite/" ++ name⟩
    relative := ⟨name⟩
    config := Config.flatten []
    directives := .ok { runLines := [⟨command, 1, true⟩] } }

def lineTests : List TestCase := [lineTest "a" "good", lineTest "b" "bad"]

/-- What one command comes to that ends with this code. -/
def lineResult (command : String) (code : Int) (elapsed : Duration) : TestResult :=
  { kind := if code = 0 then .pass else .fail, elapsed, runs := [⟨command, some code, "", ""⟩] }

def lineScript : List ScriptEntry := [{ contains := "bad", exitCode := 1 }]

/-- One worker takes one test after the other. -/
def alone : List Move :=
  [.look 0, .claim 0, .store 0 (lineResult "good" 0 ⟨5⟩), .tell 0, .hear, .look 0, .claim 0,
    .store 0 (lineResult "bad" 1 ⟨3⟩), .tell 0, .look 0, .claim 0, .hear]

/-- Two workers take a test each, and the second test is finished first. -/
def together : List Move :=
  [.look 0, .look 1, .claim 1, .claim 0, .store 0 (lineResult "bad" 1 ⟨4⟩), .tell 0, .hear,
    .store 1 (lineResult "good" 0 ⟨9⟩), .tell 1, .look 0, .look 1, .claim 0, .claim 1, .hear]

theorem evaluate_line (elapsed elapsed' : Duration) :
    ∀ attempt ∈ [(0, some (lineResult "good" 0 elapsed)), (1, some (lineResult "bad" 1 elapsed'))],
      (Script.executor lineScript).Evaluates none lineTests {} attempt := by
  have good : (evaluate (Script.executor lineScript) none (lineTest "a" "good") {}).1 =
      some (lineResult "good" 0 .zero) := by decide +kernel
  have bad : (evaluate (Script.executor lineScript) none (lineTest "b" "bad") {}).1 =
      some (lineResult "bad" 1 .zero) := by decide +kernel
  intro attempt member
  simp only [List.mem_cons, List.not_mem_nil, or_false] at member
  rcases member with rfl | rfl
  · exact ⟨lineTest "a" "good", {}, rfl, .start, by rw [good]; rfl⟩
  · exact ⟨lineTest "b" "bad", {}, rfl, .start, by rw [bad]; rfl⟩

theorem alone_together :
    ∃ state state',
      (Script.executor lineScript).Performs none lineTests {} 1 alone state ∧
      (Script.executor lineScript).Performs none lineTests {} 2 together state' ∧
      state.close.reported.map Prod.fst = [0, 1] ∧ state'.close.reported.map Prod.fst = [1, 0] ∧
      state.untimedReports.Perm state'.untimedReports ∧
      (state.close.summary .zero).counts = (state'.close.summary .zero).counts := by
  -- The two runs are fixed, and small enough to be followed to their ends.
  have followed : ((State.initial 1 2).follow? none alone).isSome := by decide
  have followed' : ((State.initial 2 2).follow? none together).isSome := by decide
  obtain ⟨state, followed⟩ := Option.isSome_iff_exists.mp followed
  obtain ⟨state', followed'⟩ := Option.isSome_iff_exists.mp followed'
  have facts : ((State.initial 1 2).follow? none alone).all fun state =>
      state.settled ∧ state.close.reported.map Prod.fst = [0, 1] := by decide
  have facts' : ((State.initial 2 2).follow? none together).all fun state =>
      state.settled ∧ state.close.reported.map Prod.fst = [1, 0] := by decide
  rw [followed, Option.all_some, decide_eq_true_eq] at facts
  rw [followed', Option.all_some, decide_eq_true_eq] at facts'
  have attempts : (State.initial 1 2).attempts none alone =
      [(0, some (lineResult "good" 0 ⟨5⟩)), (1, some (lineResult "bad" 1 ⟨3⟩))] := by decide
  have attempts' : (State.initial 2 2).attempts none together =
      [(1, some (lineResult "bad" 1 ⟨4⟩)), (0, some (lineResult "good" 0 ⟨9⟩))] := by decide
  have performs : (Script.executor lineScript).Performs none lineTests {} 1 alone state := by
    refine ⟨followed, facts.1, by decide, ?_⟩
    intro attempt member
    exact evaluate_line ⟨5⟩ ⟨3⟩ attempt (attempts ▸ member)
  have performs' : (Script.executor lineScript).Performs none lineTests {} 2 together state' := by
    refine ⟨followed', facts'.1, by decide, ?_⟩
    intro attempt member
    refine evaluate_line ⟨9⟩ ⟨4⟩ attempt ?_
    have listed : attempt ∈ (State.initial 2 2).attempts none together := member
    rw [attempts'] at listed
    exact (List.Perm.swap ..).mem_iff.mp listed
  obtain ⟨same, -, counts, -, -, -⟩ :=
    reports_independent (Script.executor lineScript) none lineTests {}
      (Script.steady lineScript lineTests {}) 1 2 alone together state state' performs performs'
      .zero .zero
  exact ⟨state, state', performs, performs', facts.2, facts'.2, same, counts⟩

end SuiteRunner.Run
