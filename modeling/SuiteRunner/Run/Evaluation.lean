import SuiteRunner.Run.Preparation

/-!
# Evaluation of one test

A test is settled without running anything if its directives are malformed, if it makes no
sense here, if it needs what is not there, or if it cannot be made ready. Otherwise its
commands are handed to an executor once, and the outcome is judged by whether the test
is expected to fail.
-/

namespace SuiteRunner.Run

open Config Directive Discovery

/-- What a test comes to before anything is run. -/
inductive Plan where
  | settled (result : TestResult)
  | run (directives : TestDirectives) (request : Request)

/-- Decide whether a test is run, and with which request. -/
def plan (tree : Files.FileTree) (override : Option UInt64) (test : TestCase) : Plan :=
  match test.directives with
  | .error problem => .settled (.ofReason .unresolved problem.message)
  | .ok directives =>
    let config := test.config
    if config.unsupported then
      .settled (.ofReason .unsupported "directory is marked unsupported")
    else
      match directives.unsupportedMatch? config.matchesPlatform with
      | some expr => .settled (.ofReason .unsupported ("UNSUPPORTED: " ++ expr.text))
      | none =>
        let missing := directives.missing config.hasFeature
        if !missing.isEmpty then
          .settled (.ofReason .skipped ("missing features: " ++ ", ".intercalate missing))
        else if directives.runLines.isEmpty then
          .settled (.ofReason .unresolved "test has no RUN: lines")
        else
          match prepare tree override test directives.runLines with
          | .error obstacle => .settled (.ofReason .unresolved obstacle.message)
          | .ok request => .run directives request

/-- Judge an outcome; `xfail` is the expectation of failure that holds, if there is one. -/
def judge (xfail : Option Feature.Expr) : Outcome → TestResult
  | .timedOut => .ofReason .timeout "deadline exceeded"
  | .interrupted => .ofReason .unresolved "interrupted"
  | .failed =>
    match xfail with
    | some expr => .ofReason .xfail ("XFAIL: " ++ expr.text)
    | none => { kind := .fail }
  | .passed =>
    match xfail with
    | some expr => .ofReason .xpass ("expected to fail (XFAIL: " ++ expr.text ++ ")")
    | none => { kind := .pass }

/-- The result of a test whose commands were handed to an executor; a lost attempt has none. -/
def conclude (config : EffectiveConfig) (directives : TestDirectives) :
    Attempt → Option TestResult
  | .lost => none
  | .refused error => some (.ofReason .unresolved error.message)
  | .reported report =>
    let xfail := directives.xfailMatch? config.matchesPlatform
    some { judge xfail report.outcome with runs := report.runs }

/-- What runs requests; `σ` is its state. -/
structure Executor (σ : Type) where
  files : σ → Files.FileTree
  run : Request → σ → Attempt × σ
  /-- Whether somebody wants the run to stop. -/
  aborted : σ → Bool

/-- Take one test to its result. -/
def evaluate {σ : Type} (executor : Executor σ) (override : Option UInt64) (test : TestCase)
    (world : σ) : Option TestResult × σ :=
  match plan (executor.files world) override test with
  | .settled result => (some result, world)
  | .run directives request =>
    let (attempt, world) := executor.run request world
    (conclude test.config directives attempt, world)

end SuiteRunner.Run
