import SuiteRunner.Proofs.Run.Gates
import SuiteRunner.Proofs.Run.Independence

/-!
# Expectations of failure

Whether a test is expected to fail is asked only when its outcome is judged. So a test is handed
over, or settled, as it would be without any expectation, and what it comes to is that result
seen in view of the expectation that holds: a failure was expected, a pass was not, and every
other result stays as it is.
-/

namespace SuiteRunner

open Directive Discovery

/-- Directives apart from where the test is expected to fail. -/
def Directive.TestDirectives.withoutXfail (directives : TestDirectives) : TestDirectives :=
  { directives with xfail := [] }

namespace Discovery.TestCase

/-- A test apart from where it is expected to fail. -/
def withoutXfail (test : TestCase) : TestCase :=
  { test with directives := test.directives.map TestDirectives.withoutXfail }

/-- The first expectation of failure of a test that holds. -/
def expectation? (test : TestCase) : Option Feature.Expr :=
  match test.directives with
  | .ok directives => directives.xfailMatch? test.config.matchesPlatform
  | .error _ => none

end Discovery.TestCase

namespace Run

/-! ### Results in view of an expectation -/

/-- A result in view of the expectation of failure that holds, if there is one. -/
def TestResult.expecting (expectation : Option Feature.Expr) (result : TestResult) : TestResult :=
  match expectation, result.kind with
  | some expr, .fail => { result with kind := .xfail, reason := some ("XFAIL: " ++ expr.text) }
  | some expr, .pass =>
    { result with
      kind := .xpass
      reason := some ("expected to fail (XFAIL: " ++ expr.text ++ ")") }
  | _, _ => result

theorem TestResult.expecting_runs (expectation : Option Feature.Expr) (result : TestResult) :
    (result.expecting expectation).runs = result.runs := by
  unfold expecting
  split <;> rfl

theorem TestResult.expecting_of_ne {result : TestResult} (expectation : Option Feature.Expr)
    (failed : result.kind ≠ .fail) (passed : result.kind ≠ .pass) :
    result.expecting expectation = result := by
  unfold expecting
  split
  next failing => exact absurd failing failed
  next passing => exact absurd passing passed
  next => rfl

/-- A result that is neither a failure nor a pass in view of one expectation is the same in view of
any other. -/
theorem TestResult.expecting_eq_of_kind {result : TestResult} {expectation : Option Feature.Expr}
    (unmoved : (result.expecting expectation).kind ∈
      [.unresolved, .timeout, .unsupported, .skipped]) (other : Option Feature.Expr) :
    result.expecting other = result.expecting expectation := by
  have failed : result.kind ≠ .fail := by
    intro failing
    cases expectation <;> simp [expecting, failing] at unmoved
  have passed : result.kind ≠ .pass := by
    intro passing
    cases expectation <;> simp [expecting, passing] at unmoved
  rw [expecting_of_ne other failed passed, expecting_of_ne expectation failed passed]

theorem conclude_withoutXfail (config : Config.EffectiveConfig) (directives : TestDirectives)
    (attempt : Attempt) :
    conclude config directives attempt =
      (conclude config directives.withoutXfail attempt).map
        (.expecting (directives.xfailMatch? config.matchesPlatform)) := by
  cases attempt with
  | lost => rfl
  | refused error => cases directives.xfailMatch? config.matchesPlatform <;> rfl
  | reported report =>
    simp only [conclude, TestDirectives.withoutXfail]
    cases report.outcome <;> cases directives.xfailMatch? config.matchesPlatform <;> rfl

/-! ### Plans -/

/-- A plan apart from where its test is expected to fail. -/
def Plan.withoutXfail : Plan → Plan
  | settled result => .settled result
  | run directives request => .run directives.withoutXfail request

/-- A request does not speak of expectations. -/
theorem prepare_withoutXfail (tree : Files.FileTree) (override : Option UInt64) (test : TestCase)
    (lines : List RunLine) :
    prepare tree override test.withoutXfail lines = prepare tree override test lines := rfl

theorem plan_withoutXfail (tree : Files.FileTree) (override : Option UInt64) (test : TestCase) :
    plan tree override test.withoutXfail = (plan tree override test).withoutXfail := by
  cases read : test.directives with
  | error problem => simp only [plan, TestCase.withoutXfail, read, Except.map, Plan.withoutXfail]
  | ok directives =>
    have read' : test.withoutXfail.directives = .ok directives.withoutXfail := by
      simp only [TestCase.withoutXfail, read, Except.map]
    have supported : test.withoutXfail.config.unsupported = test.config.unsupported := rfl
    have excluded :
        directives.withoutXfail.unsupportedMatch? test.withoutXfail.config.matchesPlatform =
          directives.unsupportedMatch? test.config.matchesPlatform := rfl
    have missing : directives.withoutXfail.missing test.withoutXfail.config.hasFeature =
        directives.missing test.config.hasFeature := rfl
    have lines : directives.withoutXfail.runLines = directives.runLines := rfl
    -- Each decision reads the same of both, so both plans come about in the same way.
    simp only [plan, read, read', supported, excluded, missing, lines, prepare_withoutXfail]
    split
    next => rfl
    next =>
      split
      next => rfl
      next =>
        split
        next => rfl
        next =>
          split
          next => rfl
          next => split <;> rfl

/-! ### Evaluations -/

section

variable {σ : Type} (executor : Executor σ) (override : Option UInt64)

/-- The requests that come of a plan. -/
def Plan.requests : Plan → List Request
  | settled _ => []
  | run _ request => [request]

theorem Executor.requests_eq (test : TestCase) (world : σ) :
    executor.requests override test world =
      (plan (executor.files world) override test).requests := by
  cases planned : plan (executor.files world) override test with
  | settled result => exact requests_settled planned
  | run directives request => exact requests_run planned

theorem requests_withoutXfail (test : TestCase) (world : σ) :
    executor.requests override test.withoutXfail world = executor.requests override test world := by
  rw [executor.requests_eq, executor.requests_eq, plan_withoutXfail]
  cases plan (executor.files world) override test <;> rfl

/-- The kinds of results that only an expectation can lead to. -/
theorem kind_of_conclude_withoutXfail {config : Config.EffectiveConfig}
    {directives : TestDirectives} {attempt : Attempt} :
    ∀ result ∈ conclude config directives.withoutXfail attempt,
      result.kind ≠ .xfail ∧ result.kind ≠ .xpass := by
  intro result concluded
  cases attempt with
  | lost => cases concluded
  | refused error =>
    cases concluded
    simp [TestResult.ofReason]
  | reported report =>
    cases concluded
    cases report.outcome <;>
      simp [judge, TestDirectives.withoutXfail, TestDirectives.xfailMatch?, TestResult.ofReason]

/-- What a test comes to is what it would come to without expectations, in view of the one that
holds. -/
theorem evaluate_withoutXfail (test : TestCase) (world : σ) :
    (evaluate executor override test world).1 =
        (evaluate executor override test.withoutXfail world).1.map
          (.expecting test.expectation?) ∧
      ∀ result ∈ (evaluate executor override test.withoutXfail world).1,
        result.kind ≠ .xfail ∧ result.kind ≠ .xpass := by
  have without := plan_withoutXfail (executor.files world) override test
  rcases Gate.open_or_closedFirst (executor.files world) test with through | ⟨gate, first⟩
  · obtain ⟨directives, request, read, -, planned⟩ := plan_of_open override through
    rw [planned] at without
    rw [evaluate_run executor world planned, evaluate_run executor world without]
    refine ⟨?_, kind_of_conclude_withoutXfail⟩
    have holding : test.expectation? = directives.xfailMatch? test.config.matchesPlatform := by
      simp only [TestCase.expectation?, read]
    rw [holding]
    exact conclude_withoutXfail test.config directives _
  · obtain ⟨reason, settled, -⟩ := settles_of_closedFirst override first
    rw [settled] at without
    rw [evaluate_settled executor world settled, evaluate_settled executor world without]
    -- No gate settles a test as one that was run.
    have kinds : gate.kind ≠ .fail ∧ gate.kind ≠ .pass ∧ gate.kind ≠ .xfail ∧
        gate.kind ≠ .xpass := by cases gate <;> decide
    refine ⟨?_, ?_⟩
    · rw [Option.map_some, TestResult.expecting_of_ne _ kinds.1 kinds.2.1]
    · rintro result same
      cases same
      exact kinds.2.2

variable {executor}

/-- An executor whose answers depend on the request only is handed the same of a test wherever the
same tools and libraries are found, and the test comes to the same there. -/
theorem evaluate_elsewhere
    (answers : ∀ request world world',
      (executor.run request world).1 = (executor.run request world').1)
    (test : TestCase) {world world' : σ}
    (tools : test.config.places.tool (executor.files world) =
      test.config.places.tool (executor.files world'))
    (libraries : test.config.places.library (executor.files world) =
      test.config.places.library (executor.files world')) :
    executor.requests override test world = executor.requests override test world' ∧
      (evaluate executor override test world).1 = (evaluate executor override test world').1 := by
  have same := plan_congr override tools libraries
  refine ⟨by rw [executor.requests_eq, executor.requests_eq, same], ?_⟩
  cases planned : plan (executor.files world') override test with
  | settled result =>
    rw [evaluate_settled executor world' planned,
      evaluate_settled executor world (same.trans planned)]
  | run directives request =>
    rw [evaluate_run executor world' planned, evaluate_run executor world (same.trans planned)]
    simp only [Prod.map, answers request world world']

/-- Let two tests differ only in where they are expected to fail, and let the answers of an executor
depend on the request only. Then it is handed the same for both. What they come to is one and
the same result in view of the expectation of each that holds, so they have the same runs, and
only a failure or a pass is told differently. An interrupted pipeline is unresolved, whatever is
expected. -/
theorem xfail_only_relabels (executor : Executor σ) (override : Option UInt64)
    (answers : ∀ request world world',
      (executor.run request world).1 = (executor.run request world').1)
    (first second : TestCase) (same : first.withoutXfail = second.withoutXfail) (world world' : σ)
    (tools : first.config.places.tool (executor.files world) =
      first.config.places.tool (executor.files world'))
    (libraries : first.config.places.library (executor.files world) =
      first.config.places.library (executor.files world')) :
    executor.requests override first world = executor.requests override second world' ∧
    (evaluate executor override first world).1.map TestResult.runs =
      (evaluate executor override second world').1.map TestResult.runs ∧
    (∃ plain : Option TestResult,
      (∀ result ∈ plain, result.kind ≠ .xfail ∧ result.kind ≠ .xpass) ∧
      (evaluate executor override first world).1 = plain.map (.expecting first.expectation?) ∧
      (evaluate executor override second world').1 = plain.map (.expecting second.expectation?)) ∧
    (∀ result ∈ (evaluate executor override first world).1,
      result.kind ∈ [.unresolved, .timeout, .unsupported, .skipped] →
        (evaluate executor override second world').1 = some result) ∧
    ∀ request ∈ executor.requests override first world, ∀ report,
      (executor.run request world).1 = .reported report → report.outcome = .interrupted →
        (evaluate executor override first world).1 =
          some { TestResult.ofReason .unresolved "interrupted" with runs := report.runs } := by
  have config : second.withoutXfail.config = first.withoutXfail.config :=
    congrArg TestCase.config same.symm
  change second.config = first.config at config
  -- The second test comes to the same in the world of the first one.
  obtain ⟨requests, results⟩ :=
    evaluate_elsewhere override answers second (config ▸ tools) (config ▸ libraries)
  obtain ⟨seen, kinds⟩ := evaluate_withoutXfail executor override first world
  obtain ⟨seen', -⟩ := evaluate_withoutXfail executor override second world
  rw [← same] at seen'
  rw [← requests, ← results]
  refine ⟨?_, ?_, ⟨_, kinds, seen, seen'⟩, ?_, ?_⟩
  · rw [← requests_withoutXfail, same, requests_withoutXfail]
  · simp only [seen, seen', Option.map_map, Function.comp_def, TestResult.expecting_runs]
  · intro result member unmoved
    rw [seen, Option.mem_def, Option.map_eq_some_iff] at member
    obtain ⟨plain, came, rfl⟩ := member
    rw [seen', came, Option.map_some, TestResult.expecting_eq_of_kind unmoved]
  · intro request member report reported interrupted
    rw [executor.requests_eq] at member
    cases planned : plan (executor.files world) override first with
    | settled result => simp [planned, Plan.requests] at member
    | run directives request' =>
      rw [planned] at member
      obtain rfl := List.mem_singleton.mp member
      rw [evaluate_run executor world planned]
      simp [Prod.map, reported, conclude, interrupted, judge, TestResult.ofReason]

end

/-- An executor all of whose commands fail. Its world is the number of requests so far. -/
def alwaysFailing : Executor Nat where
  files _ := {}
  run request count :=
    (.reported ⟨.failed, request.commands.map fun command => ⟨command.text, some 1, "", ""⟩⟩,
      count + 1)
  aborted _ := false

/-- A test that is expected to fail everywhere. -/
def expectedToFail : TestCase :=
  { lineTest "a" "bad" with
    directives := .ok { xfail := [.always], runLines := [⟨"bad", 1, true⟩] } }

theorem expectedToFail_relabelled :
    expectedToFail.withoutXfail = (lineTest "a" "bad").withoutXfail ∧
    alwaysFailing.requests none expectedToFail 0 =
      alwaysFailing.requests none (lineTest "a" "bad") 5 ∧
    (evaluate alwaysFailing none expectedToFail 0).1.map TestResult.kind = some .xfail ∧
    (evaluate alwaysFailing none (lineTest "a" "bad") 5).1.map TestResult.kind = some .fail ∧
    ∃ plain : Option TestResult,
      (evaluate alwaysFailing none expectedToFail 0).1 = plain.map (.expecting (some .always)) ∧
      (evaluate alwaysFailing none (lineTest "a" "bad") 5).1 = plain.map (.expecting none) := by
  obtain ⟨requests, -, ⟨plain, -, seen, seen'⟩, -⟩ :=
    xfail_only_relabels alwaysFailing none (fun _ _ _ => rfl) expectedToFail
      (lineTest "a" "bad") rfl 0 5 rfl rfl
  exact ⟨rfl, requests, by decide +kernel, by decide +kernel, plain, seen, seen'⟩

end Run

end SuiteRunner
