import SuiteRunner.Proofs.Run.Gates
import SuiteRunner.Proofs.Run.Losses
import SuiteRunner.Run.Runner

/-!
# Limits without a deadline

The limit on a test is the number of seconds that is given for the whole run, or else that of
the most specific layer which has one; zero is no limit. Nothing bounds the seconds from above,
but there is a last instant. A test whose limit goes beyond that instant is lost when its
commands are due, and no other test is. At the end of the run it is skipped, which does not keep
the run from succeeding.
-/

namespace SuiteRunner.Run

open Config Directive Discovery

/-! ### Limits -/

/-- The seconds that a test may take. -/
def limitOf (override : Option UInt64) (chain : List Layer) : Option UInt64 :=
  (override.or (chain.findSome? (·.timeout))).filter (0 < ·)

/-- There is no instant that comes so many seconds after this one. -/
def Instant.Exceeded (now : Instant) (seconds : UInt64) : Prop :=
  latestSecond < now.nanos / Duration.nanosPerSecond + seconds.toNat

theorem effectiveTimeout_flatten (override : Option UInt64) (chain : List Layer) :
    effectiveTimeout override (flatten chain).timeoutSecs =
      (limitOf override chain).map fun seconds => .ofSeconds seconds.toNat := by
  have zero : (override.or ((chain.findSome? (·.timeout)).filter (0 < ·))).filter (0 < ·) =
      limitOf override chain := by
    -- A zero of the configuration is dropped early, and would be dropped here, too.
    cases override with
    | some seconds => rfl
    | none => simp [limitOf, Option.filter_filter]
  rw [effectiveTimeout, ← zero]
  rfl

theorem Instant.after?_eq_none_iff {now : Instant} {seconds : UInt64} :
    now.after? (.ofSeconds seconds.toNat) = none ↔ now.Exceeded seconds := by
  -- The limit is in whole seconds, so what is left of the current one does not matter.
  have whole : (now.nanos + seconds.toNat * Duration.nanosPerSecond) / Duration.nanosPerSecond =
      now.nanos / Duration.nanosPerSecond + seconds.toNat :=
    Nat.add_mul_div_right _ _ (by decide)
  change (if (now.nanos + seconds.toNat * Duration.nanosPerSecond) / Duration.nanosPerSecond ≤
    latestSecond then some _ else none) = none ↔ _
  rw [whole, Exceeded]
  split <;> simp <;> omega

/-- Layers never amount to an empty shell. -/
theorem flatten_shell_ne_nil (chain : List Layer) : (flatten chain).shell ≠ [] := by
  change ((chain.findSome? (·.shell)).filter (!·.isEmpty)).getD defaultShell ≠ []
  cases filtered : (chain.findSome? (·.shell)).filter (!·.isEmpty) with
  | none => simp [defaultShell]
  | some shell => simpa using (Option.filter_eq_some_iff.mp filtered).2

theorem conclude_eq_none_iff {config : EffectiveConfig} {directives : TestDirectives}
    {attempt : Attempt} : conclude config directives attempt = none ↔ attempt = .lost := by
  cases attempt <;> simp [conclude]

namespace Host

variable {σ : Type}

theorem deadline?_eq_none_iff (host : Host σ) (override : Option UInt64) (chain : List Layer)
    (world : σ) :
    host.deadline? (effectiveTimeout override (flatten chain).timeoutSecs) world = none ↔
      ∃ seconds, limitOf override chain = some seconds ∧ (host.now world).Exceeded seconds := by
  rw [effectiveTimeout_flatten]
  cases limitOf override chain with
  | none => simp [deadline?]
  | some seconds => simp [deadline?, Instant.after?_eq_none_iff]

/-! ### Lost attempts -/

/-- A request is lost if and only if its commands are due and there is no deadline for them. -/
theorem pipeline_lost_iff (host : Host σ) (request : Request) (world : σ) :
    (host.pipeline request world).1 = .lost ↔
      request.shell ≠ [] ∧ ∃ begun, host.makeDirectories request.directory world = .ok begun ∧
        host.deadline? request.timeout begun = none := by
  rw [pipeline]
  cases request.shell with
  | nil => simp
  | cons program arguments =>
    cases host.makeDirectories request.directory world with
    | error cause => simp
    | ok begun =>
      cases due : host.deadline? request.timeout begun with
      | none => simp [due]
      | some deadline =>
        -- What is launched comes to a report or an error.
        simp only [due, reduceCtorEq, Except.ok.injEq, exists_eq_left', and_false, iff_false]
        rcases host.runCommands _ request.commands begun with ⟨_ | _, _⟩ <;> simp

/-- The commands of a test are due: nothing keeps the test from being run, and its directory has
been made. -/
def Due (host : Host σ) (files : σ → Files.FileTree) (override : Option UInt64) (test : TestCase)
    (world begun : σ) : Prop :=
  ∃ directives request, test.directives = .ok directives ∧ Permitted test.config directives ∧
    Prepared (files world) override test directives.runLines request ∧
    host.makeDirectories request.directory world = .ok begun

/-- The commands of a test with these layers are due when its limit exceeds all instants. -/
def OutOfTime (host : Host σ) (files : σ → Files.FileTree) (override : Option UInt64)
    (chain : List Layer) (test : TestCase) (world : σ) : Prop :=
  ∃ begun seconds, host.Due files override test world begun ∧
    limitOf override chain = some seconds ∧ (host.now begun).Exceeded seconds

/-- A test is lost if and only if it is out of time. -/
theorem evaluate_lost_iff (host : Host σ) (files : σ → Files.FileTree) (override : Option UInt64)
    {chain : List Layer} {test : TestCase} (flattened : test.config = flatten chain) (world : σ) :
    (evaluate (host.executor files) override test world).1 = none ↔
      host.OutOfTime files override chain test world := by
  rcases plan_cases (files world) override test with
    ⟨kind, reason, planned, -⟩ | ⟨directives, request, planned, read, permitted, prepared⟩
  -- A settled test has its result, and nothing of it is due.
  · rw [evaluate_settled (host.executor files) world planned]
    constructor
    · exact nofun
    · rintro ⟨begun, seconds, ⟨directives, request, read, permitted, prepared, -⟩, -⟩
      rw [plan_of_permitted read permitted (prepare_eq_ok_iff.mpr prepared)] at planned
      cases planned
  · have ready := prepare_eq_ok_iff.mp prepared
    have shell : request.shell ≠ [] := by
      rw [ready.shell, flattened]
      exact flatten_shell_ne_nil chain
    rw [evaluate_run (host.executor files) world planned]
    -- Of all attempts only a lost one has no result.
    change conclude test.config directives (host.pipeline request world).1 = none ↔ _
    rw [conclude_eq_none_iff, pipeline_lost_iff, ready.timeout, flattened]
    simp only [deadline?_eq_none_iff]
    constructor
    · rintro ⟨-, begun, made, seconds, limit, exceeded⟩
      exact ⟨begun, seconds, ⟨directives, request, read, permitted, ready, made⟩, limit, exceeded⟩
    -- The request is determined by the test.
    · rintro ⟨begun, seconds, ⟨other, request', read', -, ready', made⟩, limit, exceeded⟩
      obtain rfl : directives = other := Except.ok.inj (read.symm.trans read')
      have same := prepared.symm.trans (prepare_eq_ok_iff.mpr ready')
      obtain rfl : request = request' := Except.ok.inj same
      exact ⟨shell, begun, made, seconds, limit, exceeded⟩

end Host

/-! ### Runs -/

/-- A test is lost if and only if it is out of time: its commands are due, and the limit which
counts for it goes beyond the last instant. However the workers, the listener and those who
raise the flag take turns, at the end of a run every test has been reported once, a lost one as
skipped. The run succeeds if and only if no result that came in is a failure, so lost tests do
not keep it from doing so. -/
theorem outOfTime_lost_then_skipped {σ : Type} (host : Host σ) (files : σ → Files.FileTree)
    (override : Option UInt64) (tests : List TestCase) (chain : Nat → List Layer)
    (flattened : ∀ index test, tests[index]? = some test → test.config = flatten (chain index)) :
    (∀ index test world, tests[index]? = some test →
      ((evaluate (host.executor files) override test world).1 = none ↔
        host.OutOfTime files override (chain index) test world)) ∧
    ∀ limit wanted moves state start duration,
      (State.initial wanted tests.length).follow? limit moves = some state →
      state.settled = true →
      (∀ attempt ∈ (State.initial wanted tests.length).attempts limit moves,
        (host.executor files).Evaluates override tests start attempt) →
      (state.close.reported.map Prod.fst).Perm (List.range tests.length) ∧
      (∀ index, (index, none) ∈ (State.initial wanted tests.length).attempts limit moves →
        (index, .ofReason .skipped state.skipReason) ∈ state.close.reported ∧
        ∃ test world, tests[index]? = some test ∧ (host.executor files).Leads start world ∧
          host.OutOfTime files override (chain index) test world) ∧
      ((state.close.summary duration).success = true ↔
        ∀ outcome ∈ (State.initial wanted tests.length).outcomes limit moves,
          failing outcome = false) := by
  refine ⟨fun index test world found =>
    host.evaluate_lost_iff files override (flattened index test found) world, ?_⟩
  intro limit wanted moves state start duration followed settled evaluated
  have accounted := State.accounted_of_followed followed
  refine ⟨State.close_reported_perm accounted settled, fun index lost => ⟨?_, ?_⟩,
    State.success_iff_outcomes followed settled duration⟩
  · exact State.skipped_of_lost accounted settled (State.mem_casualties.mpr lost)
  · obtain ⟨test, world, found, led, came⟩ := evaluated _ lost
    rw [Option.map_none, Option.map_eq_none_iff] at came
    exact ⟨test, world, found, led,
      (host.evaluate_lost_iff files override (flattened index test found) world).mp came⟩

/-! ### The longest limits -/

/-- The most seconds that can be given for a whole run. -/
def longest : UInt64 := 18446744073709551615

/-- A layer with the most seconds that a layer file can set. -/
def endless : Layer := { scope := ⟨"/suite/litmus.toml"⟩, timeout := some 9223372036854775807 }

/-- A suite of one test with these layers. -/
def lone (chain : List Layer) : List TestCase :=
  [{ lineTest "a.t" "true" with config := flatten chain }]

theorem evaluate_longest :
    (evaluate Shell.executor (some longest) (lineTest "a.t" "true") { tree := {} }).1 = none := by
  decide +kernel

/-- The only worker takes the test and is lost with it. -/
def perishing : List Move := [.look 0, .claim 0, .lose 0]

theorem longest_lost_then_skipped :
    Shell.host.OutOfTime Shell.World.tree (some longest) [] (lineTest "a.t" "true") { tree := {} } ∧
    ∃ state, (State.initial 1 1).follow? none perishing = some state ∧ state.settled = true ∧
      (0, .ofReason .skipped "run interrupted") ∈ state.close.reported ∧
      (state.close.summary .zero).success = true := by
  obtain ⟨lost_iff, ending⟩ := outOfTime_lost_then_skipped Shell.host Shell.World.tree
    (some longest) (lone []) (fun _ => []) (by
      intro index test found
      obtain rfl := List.mem_singleton.mp (List.mem_of_getElem? found)
      rfl)
  have lost := evaluate_longest
  rw [Host.shell_executor_eq] at lost
  have outOfTime := (lost_iff 0 _ { tree := {} } rfl).mp lost
  have followed : ((State.initial 1 1).follow? none perishing).isSome := by decide
  obtain ⟨state, followed⟩ := Option.isSome_iff_exists.mp followed
  have facts : ((State.initial 1 1).follow? none perishing).all fun state =>
      state.settled ∧ state.skipReason = "run interrupted" := by decide
  rw [followed, Option.all_some, decide_eq_true_eq] at facts
  obtain ⟨settled, reason⟩ := facts
  have attempts : (State.initial 1 1).attempts none perishing = [(0, none)] := by decide
  have outcomes : (State.initial 1 1).outcomes none perishing = [] := by decide
  obtain ⟨-, skips, succeeds⟩ := ending none 1 perishing state { tree := {} } .zero followed
    settled (by
      intro attempt member
      obtain rfl := List.mem_singleton.mp (attempts ▸ member)
      exact ⟨_, { tree := {} }, rfl, .start, congrArg _ lost⟩)
  obtain ⟨skipped, -⟩ := skips 0 (attempts ▸ List.mem_singleton.mpr rfl)
  rw [reason] at skipped
  refine ⟨outOfTime, state, followed, settled, skipped, succeeds.mpr ?_⟩
  intro outcome came
  exact absurd (outcomes ▸ came) List.not_mem_nil

/-- The report of a run whose only test was lost. -/
def forsaken : RunRecord := ⟨1, [("a.t", .ofReason .skipped "run interrupted")]⟩

/-- There is no deadline for the longest limits, whether one is given for the run or set by a layer:
the test is skipped, and the run succeeds. -/
theorem longest_limits_skip :
    Shell.host.deadline? (effectiveTimeout (some longest) (flatten []).timeoutSecs)
      { tree := {} } = none ∧
    Shell.host.deadline? (effectiveTimeout none (flatten [endless]).timeoutSecs)
      { tree := {} } = none ∧
    (runTests Shell.executor { timeout := some longest } (lone []) { tree := {} }).1 = forsaken ∧
    (runTests Shell.executor {} (lone [endless]) { tree := {} }).1 = forsaken ∧
    (forsaken.summary .zero).success = true := by
  decide +kernel

end SuiteRunner.Run
