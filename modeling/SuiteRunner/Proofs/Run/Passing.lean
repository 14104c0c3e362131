import SuiteRunner.Proofs.Run.Launches
import SuiteRunner.Shell.Host

/-!
# When a test passes

A test passes if and only if it may be run, everything that its run-lines mention is found,
all of them can be substituted, and each command that comes of them is launched once, in
order, and succeeds. Every other way through an evaluation ends with another result.
-/

namespace SuiteRunner.Run

open Config Directive Discovery Files Substitution

/-! ### What preparation comes to -/

/-- A name is found, and this rule replaces its placeholder by what was found. -/
def Resolves (find : String → Except Tool.NotFound Path) (name : String) (rule : Rule) : Prop :=
  ∃ path, find name = .ok path ∧ rule = ⟨placeholder name, path.shown⟩

/-- This command comes of a run-line. -/
def Substitutes (rules : List Rule) (line : RunLine) (command : Command) : Prop :=
  substitute rules line.command = .ok command.text ∧ command.propagates = line.propagates

/-- This is a request for these run-lines of a test: every tool and library that they mention
is found, and every one of them is substituted. -/
structure Prepared (tree : FileTree) (override : Option UInt64) (test : TestCase)
    (lines : List RunLine) (request : Request) : Prop where
  shell : request.shell = test.config.shell
  directory :
    request.directory = (TestPaths.ofTest test.path test.relative test.config.execRoot).tempDir
  env : request.env = test.config.env.entries
  timeout : request.timeout = effectiveTimeout override test.config.timeoutSecs
  commands : ∃ tools libraries,
    List.Forall₂ (Resolves (test.config.places.tool tree))
      (test.config.tools.filter (mentions lines)) tools ∧
    List.Forall₂ (Resolves (test.config.places.library tree))
      (test.config.libraries.filter (mentions lines)) libraries ∧
    List.Forall₂
      (Substitutes (test.config.rulesFor (tools ++ libraries)
        (TestPaths.ofTest test.path test.relative test.config.execRoot)))
      lines request.commands

theorem placeholderRules_eq_ok_iff {find : String → Except Tool.NotFound Path}
    {names : List String} {rules : List Rule} :
    placeholderRules find names = .ok rules ↔ List.Forall₂ (Resolves find) names rules := by
  rw [placeholderRules, mapM_eq_ok_iff]
  have same : ∀ name rule, ((find name).map fun path => (⟨placeholder name, path.shown⟩ : Rule)) =
      .ok rule ↔ Resolves find name rule := by
    intro name rule
    constructor
    · intro mapped
      obtain ⟨path, found, rfl⟩ := map_eq_ok mapped
      exact ⟨path, found, rfl⟩
    · rintro ⟨path, found, rfl⟩
      rw [found]
      rfl
  simp only [same]

theorem resolvedRules_eq_ok_iff {tree : FileTree} {config : EffectiveConfig}
    {wanted : String → Bool} {rules : List Rule} :
    resolvedRules tree config wanted = .ok rules ↔
      ∃ tools libraries,
        List.Forall₂ (Resolves (config.places.tool tree)) (config.tools.filter wanted) tools ∧
        List.Forall₂ (Resolves (config.places.library tree)) (config.libraries.filter wanted)
          libraries ∧
        rules = tools ++ libraries := by
  simp only [← placeholderRules_eq_ok_iff]
  constructor
  · intro resolved
    obtain ⟨tools, foundTools, resolved⟩ := bind_eq_ok resolved
    obtain ⟨libraries, foundLibraries, joined⟩ := bind_eq_ok resolved
    cases joined
    exact ⟨tools, libraries, foundTools, foundLibraries, rfl⟩
  · rintro ⟨tools, libraries, foundTools, foundLibraries, rfl⟩
    rw [resolvedRules, foundTools, foundLibraries]
    rfl

theorem commandsOf_eq_ok_iff {rules : List Rule} {lines : List RunLine}
    {commands : List Command} :
    commandsOf rules lines = .ok commands ↔
      List.Forall₂ (Substitutes rules) lines commands := by
  rw [commandsOf, mapM_eq_ok_iff]
  have same : ∀ line command,
      commandOf rules line = .ok command ↔ Substitutes rules line command := by
    intro line command
    simp only [commandOf, Substitutes]
    cases substitute rules line.command with
    | error cause => simp
    | ok text =>
      cases command
      simp [eq_comm]
  simp only [same]

/-- A request is made if and only if nothing is in the way, and nothing else is then in it. -/
theorem prepare_eq_ok_iff {tree : FileTree} {override : Option UInt64} {test : TestCase}
    {lines : List RunLine} {request : Request} :
    prepare tree override test lines = .ok request ↔
      Prepared tree override test lines request := by
  constructor
  -- The preparation goes through three stages, each of which has given its part of the request.
  · intro prepared
    simp only [prepare] at prepared
    obtain ⟨resolved, found, prepared⟩ := bind_eq_ok prepared
    obtain ⟨tools, libraries, foundTools, foundLibraries, rfl⟩ :=
      resolvedRules_eq_ok_iff.mp (mapError_eq_ok_iff.mp found)
    obtain ⟨commands, substituted, made⟩ := bind_eq_ok prepared
    simp only [pure, Except.pure, Except.ok.injEq] at made
    subst made
    have substitutes := commandsOf_eq_ok_iff.mp substituted
    refine ⟨rfl, ?_, rfl, rfl, tools, libraries, foundTools, foundLibraries, substitutes⟩
    dsimp only
  · rintro ⟨shell, directory, env, timeout, tools, libraries, foundTools, foundLibraries,
      substituted⟩
    have found : (resolvedRules tree test.config (mentions lines)).mapError Obstacle.missing =
        .ok (tools ++ libraries) :=
      mapError_eq_ok_iff.mpr
        (resolvedRules_eq_ok_iff.mpr ⟨tools, libraries, foundTools, foundLibraries, rfl⟩)
    have commands := commandsOf_eq_ok_iff.mpr substituted
    simp only [prepare, found, bind, Except.bind, commands]
    rw [← shell, ← directory, ← env, ← timeout]
    rfl

/-! ### Which tests are run -/

/-- Nothing in its directives or its configuration keeps a test from being run. -/
structure Permitted (config : EffectiveConfig) (directives : TestDirectives) : Prop where
  supported : config.unsupported = false
  notExcluded : ∀ expr ∈ directives.unsupported, expr.evaluate config.matchesPlatform = false
  required : ∀ expr ∈ directives.requires, expr.evaluate config.hasFeature = true
  nonempty : directives.runLines ≠ []

theorem unsupportedMatch?_eq_none_iff {holds : String → Bool} {directives : TestDirectives} :
    directives.unsupportedMatch? holds = none ↔
      ∀ expr ∈ directives.unsupported, expr.evaluate holds = false := by
  simp only [TestDirectives.unsupportedMatch?, List.find?_eq_none, Bool.not_eq_true]

theorem xfailMatch?_eq_none_iff {holds : String → Bool} {directives : TestDirectives} :
    directives.xfailMatch? holds = none ↔
      ∀ expr ∈ directives.xfail, expr.evaluate holds = false := by
  simp only [TestDirectives.xfailMatch?, List.find?_eq_none, Bool.not_eq_true]

theorem missing_eq_nil_iff {holds : String → Bool} {directives : TestDirectives} :
    directives.missing holds = [] ↔
      ∀ expr ∈ directives.requires, expr.evaluate holds = true := by
  simp only [TestDirectives.missing, List.map_eq_nil_iff, List.filter_eq_nil_iff,
    Bool.not_eq_true', Bool.not_eq_false]

/-- A test is run if its directives can be read, it is permitted, and a request can be made for
it; otherwise it is settled, and has not passed. -/
theorem plan_cases (tree : FileTree) (override : Option UInt64) (test : TestCase) :
    (∃ kind reason, plan tree override test = .settled (.ofReason kind reason) ∧ kind ≠ .pass) ∨
    ∃ directives request, plan tree override test = .run directives request ∧
      test.directives = .ok directives ∧ Permitted test.config directives ∧
      prepare tree override test directives.runLines = .ok request := by
  -- The checks come one after another, and each of them settles a test that fails it.
  generalize planned : plan tree override test = result
  unfold plan at planned
  split at planned
  next => exact Or.inl ⟨_, _, planned.symm, by simp⟩
  next directives read =>
    dsimp only at planned
    split at planned
    next => exact Or.inl ⟨_, _, planned.symm, by simp⟩
    next supported =>
      split at planned
      next => exact Or.inl ⟨_, _, planned.symm, by simp⟩
      next notExcluded =>
        split at planned
        next => exact Or.inl ⟨_, _, planned.symm, by simp⟩
        next required =>
          split at planned
          next => exact Or.inl ⟨_, _, planned.symm, by simp⟩
          next nonempty =>
            split at planned
            next => exact Or.inl ⟨_, _, planned.symm, by simp⟩
            next request prepared =>
              refine Or.inr ⟨directives, request, planned.symm, read, ?_, prepared⟩
              exact {
                supported := by simpa using supported
                notExcluded := unsupportedMatch?_eq_none_iff.mp notExcluded
                required := missing_eq_nil_iff.mp (by simpa using required)
                nonempty := by simpa using nonempty }

theorem plan_of_permitted {tree : FileTree} {override : Option UInt64} {test : TestCase}
    {directives : TestDirectives} {request : Request} (read : test.directives = .ok directives)
    (permitted : Permitted test.config directives)
    (prepared : prepare tree override test directives.runLines = .ok request) :
    plan tree override test = .run directives request := by
  have notExcluded := unsupportedMatch?_eq_none_iff.mpr permitted.notExcluded
  have required := missing_eq_nil_iff.mpr permitted.required
  simp [plan, read, permitted.supported, notExcluded, required, permitted.nonempty, prepared]

/-- An attempt makes a test pass if and only if all its commands passed and none of the
expectations of failure holds. -/
theorem conclude_pass_iff {config : EffectiveConfig} {directives : TestDirectives}
    {attempt : Attempt} :
    (conclude config directives attempt).map TestResult.kind = some .pass ↔
      (∃ report, attempt = .reported report ∧ report.outcome = .passed) ∧
        ∀ expr ∈ directives.xfail, expr.evaluate config.matchesPlatform = false := by
  rw [← xfailMatch?_eq_none_iff]
  cases attempt with
  | lost => simp [conclude]
  | refused error => simp [conclude, TestResult.ofReason]
  | reported report =>
    simp only [conclude, Option.map_some, Option.some.injEq, Attempt.reported.injEq,
      exists_eq_left']
    cases report.outcome <;> cases directives.xfailMatch? config.matchesPlatform <;>
      simp [judge, TestResult.ofReason]

/-! ### Evaluations -/

variable {σ : Type}

theorem evaluate_settled (executor : Executor σ) (world : σ) {override : Option UInt64}
    {test : TestCase} {result : TestResult}
    (planned : plan (executor.files world) override test = .settled result) :
    evaluate executor override test world = (some result, world) := by
  simp only [evaluate, planned]

theorem evaluate_run (executor : Executor σ) (world : σ) {override : Option UInt64}
    {test : TestCase} {directives : TestDirectives} {request : Request}
    (planned : plan (executor.files world) override test = .run directives request) :
    evaluate executor override test world =
      (executor.run request world).map (conclude test.config directives) id := by
  simp only [evaluate, planned]
  rfl

namespace Host

/-- Commands that are run in a world are run by such an executor. -/
theorem shell_executor_eq : Shell.executor = Shell.host.executor Shell.World.tree := rfl

/-- Everything that is launched while a test is evaluated, with what came of it. -/
def launches (host : Host σ) (files : σ → FileTree) (override : Option UInt64) (test : TestCase)
    (world : σ) : List (Launch × Launched) :=
  (evaluate (host.recorded.executor fun world => files world.1) override test (world, [])).2.2

theorem evaluate_recorded (host : Host σ) (files : σ → FileTree) (override : Option UInt64)
    (test : TestCase) (world : σ) (log : List (Launch × Launched)) :
    (evaluate (host.recorded.executor fun world => files world.1) override test
        (world, log)).map id Prod.fst =
      evaluate (host.executor files) override test world := by
  cases planned : plan (files world) override test with
  | settled result =>
    rw [evaluate_settled (host.executor files) world planned,
      evaluate_settled (host.recorded.executor fun world => files world.1) (world, log) planned]
    rfl
  | run directives request =>
    rw [evaluate_run (host.executor files) world planned,
      evaluate_run (host.recorded.executor fun world => files world.1) (world, log) planned]
    simp only [executor, ← host.pipeline_recorded request world log]
    rfl

/-- A test passes if and only if its directives can be read, it is permitted and not expected to
fail, a request can be made for it, and everything that is launched for it are the commands
of the request, each once and in order, each of which ends by itself and does not fail. -/
theorem passes_iff (host : Host σ) (files : σ → FileTree) (override : Option UInt64)
    (path relative : Path) (config : EffectiveConfig) (source : String) (world : σ) :
    let test := TestCase.ofText path relative config source
    (evaluate (host.executor files) override test world).1.map TestResult.kind = some .pass ↔
      ∃ directives request,
        TestDirectives.parse source = .ok directives ∧ Permitted config directives ∧
        (∀ expr ∈ directives.xfail, expr.evaluate config.matchesPlatform = false) ∧
        Prepared (files world) override test directives.runLines request ∧
        List.Forall₂ (Ran request) request.commands
          (host.launches files override test world) := by
  intro test
  rw [← host.evaluate_recorded files override test world []]
  rcases plan_cases (files world) override test with
    ⟨kind, reason, planned, failing⟩ | ⟨directives, request, planned, read, permitted, prepared⟩
  -- A settled test has not passed, and something of what passing needs is missing.
  · rw [evaluate_settled (host.recorded.executor fun world => files world.1) (world, []) planned]
    constructor
    · intro passed
      exact absurd (Option.some.inj passed) failing
    · rintro ⟨directives, request, parsed, permitted, -, prepared, -⟩
      have read : test.directives = .ok directives := mapError_eq_ok_iff.mpr parsed
      rw [plan_of_permitted read permitted (prepare_eq_ok_iff.mpr prepared)] at planned
      cases planned
  · have run :=
      evaluate_run (host.recorded.executor fun world => files world.1) (world, []) planned
    -- There are as many commands as run lines, so a request of a permitted test has some.
    have commands : request.commands ≠ [] := by
      obtain ⟨tools, libraries, -, -, substituted⟩ := (prepare_eq_ok_iff.mp prepared).commands
      rintro none
      rw [none] at substituted
      exact permitted.nonempty (List.forall₂_nil_right_iff.mp substituted)
    have passed := host.pipeline_passed_iff commands world
    have parsed : TestDirectives.parse source = .ok directives := mapError_eq_ok_iff.mp read
    rw [launches, run]
    change (conclude config directives (host.recorded.pipeline request (world, [])).1).map
      TestResult.kind = some .pass ↔ _
    rw [conclude_pass_iff, passed]
    constructor
    · rintro ⟨ran, unexpected⟩
      exact ⟨directives, request, parsed, permitted, unexpected,
        prepare_eq_ok_iff.mp prepared, ran⟩
    -- The directives and the request are determined by the test.
    · rintro ⟨other, request', parsed', -, unexpected, prepared', ran⟩
      obtain rfl : directives = other := Except.ok.inj (parsed.symm.trans parsed')
      have same := prepared.symm.trans (prepare_eq_ok_iff.mpr prepared')
      obtain rfl : request = request' := Except.ok.inj same
      exact ⟨ran, unexpected⟩

end Host

end SuiteRunner.Run
