import SuiteRunner.Proofs.Run.Mentions

/-!
# What a test has to get through

A test gets through seven gates, in a fixed order, before its commands are handed to an executor,
which happens once. The first gate that is closed to it settles it: nothing is handed over, and
that gate alone decides the kind of its result. So a run-line that cannot be substituted keeps
all others from being run, wherever it stands.
-/

namespace SuiteRunner.Run

open Config Directive Discovery Files Substitution

/-! ### Remembering requests -/

namespace Executor

variable {σ : Type}

/-- An executor that also remembers the requests that it was handed. -/
def recorded (executor : Executor σ) : Executor (σ × List Request) where
  files world := executor.files world.1
  run request world :=
    let (attempt, after) := executor.run request world.1
    (attempt, after, world.2 ++ [request])
  aborted world := executor.aborted world.1

/-- The requests that an executor is handed while a test is evaluated. -/
def requests (executor : Executor σ) (override : Option UInt64) (test : TestCase) (world : σ) :
    List Request :=
  (evaluate executor.recorded override test (world, [])).2.2

variable {executor : Executor σ} {override : Option UInt64} {test : TestCase} {world : σ}

/-- Remembering requests changes nothing else. -/
theorem evaluate_recorded (executor : Executor σ) (override : Option UInt64) (test : TestCase)
    (world : σ) (log : List Request) :
    (evaluate executor.recorded override test (world, log)).map id Prod.fst =
      evaluate executor override test world := by
  cases planned : plan (executor.files world) override test with
  | settled result =>
    rw [evaluate_settled executor world planned,
      evaluate_settled executor.recorded (world, log) planned]
    rfl
  | run directives request =>
    rw [evaluate_run executor world planned, evaluate_run executor.recorded (world, log) planned]
    rfl

theorem requests_settled {result : TestResult}
    (planned : plan (executor.files world) override test = .settled result) :
    executor.requests override test world = [] := by
  rw [requests, evaluate_settled executor.recorded (world, []) planned]

theorem requests_run {directives : TestDirectives} {request : Request}
    (planned : plan (executor.files world) override test = .run directives request) :
    executor.requests override test world = [request] := by
  rw [requests, evaluate_run executor.recorded (world, []) planned]
  rfl

end Executor

/-! ### Gates -/

/-- What is asked of a test before its commands are run. -/
inductive Gate where
  | readable
  | supported
  | notExcluded
  | required
  | nonempty
  | found
  | substituted
  deriving DecidableEq, Repr

/-- The name of a tool or library is mentioned: its placeholder occurs in a run-line. -/
def Mentioned (lines : List RunLine) (name : String) : Prop :=
  ∃ line ∈ lines, (placeholder name).toList <:+: line.command.toList

/-- These are the rules by which the run-lines of a test are substituted. -/
def RulesOf (tree : FileTree) (test : TestCase) (lines : List RunLine) (rules : List Rule) : Prop :=
  ∃ tools libraries,
    List.Forall₂ (Resolves (test.config.places.tool tree))
      (test.config.tools.filter (mentions lines)) tools ∧
    List.Forall₂ (Resolves (test.config.places.library tree))
      (test.config.libraries.filter (mentions lines)) libraries ∧
    rules = test.config.rulesFor (tools ++ libraries)
      (TestPaths.ofTest test.path test.relative test.config.execRoot)

namespace Gate

/-- The place of a gate in the order in which a test comes to them. -/
def place : Gate → Nat
  | readable => 0
  | supported => 1
  | notExcluded => 2
  | required => 3
  | nonempty => 4
  | found => 5
  | substituted => 6

/-- The kind of result of a test that a gate keeps from being run. -/
def kind : Gate → ResultKind
  | supported | notExcluded => .unsupported
  | required => .skipped
  | readable | nonempty | found | substituted => .unresolved

/-- What a gate asks of a test with these directives. That there are any is all that the first
one asks. -/
def Asks (tree : FileTree) (test : TestCase) (directives : TestDirectives) : Gate → Prop
  | readable => True
  | supported => test.config.unsupported = false
  | notExcluded =>
    ∀ expr ∈ directives.unsupported, expr.evaluate test.config.matchesPlatform = false
  | required => ∀ expr ∈ directives.requires, expr.evaluate test.config.hasFeature = true
  | nonempty => directives.runLines ≠ []
  | found =>
    (∀ tool ∈ test.config.tools, Mentioned directives.runLines tool →
      ∃ path, test.config.places.tool tree tool = .ok path) ∧
    ∀ library ∈ test.config.libraries, Mentioned directives.runLines library →
      ∃ path, test.config.places.library tree library = .ok path
  | substituted =>
    ∀ rules, RulesOf tree test directives.runLines rules →
      ∀ line ∈ directives.runLines, ∃ text, substitute rules line.command = .ok text

/-- A gate is open to a test. -/
def Open (tree : FileTree) (test : TestCase) (gate : Gate) : Prop :=
  ∃ directives, test.directives = .ok directives ∧ gate.Asks tree test directives

/-- A gate is the first one that is closed to a test. -/
structure ClosedFirst (tree : FileTree) (test : TestCase) (gate : Gate) : Prop where
  closed : ¬ gate.Open tree test
  earlier : ∀ other : Gate, other.place < gate.place → other.Open tree test

theorem open_iff {tree : FileTree} {test : TestCase} {directives : TestDirectives}
    (read : test.directives = .ok directives) (gate : Gate) :
    gate.Open tree test ↔ gate.Asks tree test directives := by
  constructor
  · rintro ⟨other, read', asked⟩
    cases read.symm.trans read'
    exact asked
  · exact fun asked => ⟨directives, read, asked⟩

/-- A test gets through all gates, or one of them is the first that is closed to it. -/
theorem open_or_closedFirst (tree : FileTree) (test : TestCase) :
    (∀ gate : Gate, gate.Open tree test) ∨ ∃ gate : Gate, gate.ClosedFirst tree test := by
  by_cases closed : ∃ gate : Gate, gate.ClosedFirst tree test
  · exact .inr closed
  · refine .inl fun gate => ?_
    -- A gate whose earlier gates are open is open too, or it would be the first closed one.
    induction here : gate.place using Nat.strongRecOn generalizing gate with
    | ind place ih =>
      by_contra shut
      exact closed ⟨gate, shut, fun other before => ih other.place (here ▸ before) other rfl⟩

end Gate

/-! ### Preparation -/

section

variable {tree : FileTree} {test : TestCase} {directives : TestDirectives}
  {lines : List RunLine} {resolved rules : List Rule} (override : Option UInt64)

theorem mem_filter_mentions_iff {names : List String} {name : String} :
    name ∈ names.filter (mentions lines) ↔ name ∈ names ∧ Mentioned lines name := by
  rw [List.mem_filter, mentions_iff, Mentioned]

theorem asks_found_iff :
    Gate.found.Asks tree test directives ↔
      ∃ resolved, resolvedRules tree test.config (mentions directives.runLines) = .ok resolved := by
  -- A table of rules is found if and only if each tool and each library that is mentioned is: the
  -- mentioned ones are what the filter keeps.
  simp only [resolvedRules_eq_ok_iff, Gate.Asks]
  constructor
  · rintro ⟨tools, libraries⟩
    obtain ⟨toolRules, tools⟩ := exists_resolves_iff.mpr fun tool member =>
      tools tool (mem_filter_mentions_iff.mp member).1 (mem_filter_mentions_iff.mp member).2
    obtain ⟨libraryRules, libraries⟩ := exists_resolves_iff.mpr fun library member =>
      libraries library (mem_filter_mentions_iff.mp member).1 (mem_filter_mentions_iff.mp member).2
    exact ⟨_, toolRules, libraryRules, tools, libraries, rfl⟩
  · rintro ⟨_, toolRules, libraryRules, tools, libraries, -⟩
    exact ⟨fun tool member mentioned => exists_resolves_iff.mp ⟨_, tools⟩ tool
        (mem_filter_mentions_iff.mpr ⟨member, mentioned⟩),
      fun library member mentioned => exists_resolves_iff.mp ⟨_, libraries⟩ library
        (mem_filter_mentions_iff.mpr ⟨member, mentioned⟩)⟩

theorem rulesOf_iff (found : resolvedRules tree test.config (mentions lines) = .ok resolved) :
    RulesOf tree test lines rules ↔
      rules = test.config.rulesFor resolved
        (TestPaths.ofTest test.path test.relative test.config.execRoot) := by
  constructor
  · rintro ⟨tools, libraries, foundTools, foundLibraries, rfl⟩
    have found' := resolvedRules_eq_ok_iff.mpr ⟨_, _, foundTools, foundLibraries, rfl⟩
    rw [Except.ok.inj (found.symm.trans found')]
  · rintro rfl
    obtain ⟨tools, libraries, foundTools, foundLibraries, rfl⟩ := resolvedRules_eq_ok_iff.mp found
    exact ⟨tools, libraries, foundTools, foundLibraries, rfl⟩

/-- A test whose tools and libraries are not all found cannot be prepared. -/
theorem prepare_missing {cause : Tool.NotFound}
    (missing : resolvedRules tree test.config (mentions lines) = .error cause) :
    prepare tree override test lines = .error (.missing cause) := by
  simp only [prepare, missing, Except.mapError, bind, Except.bind]

/-- Otherwise its run-lines are substituted. -/
theorem prepare_found (found : resolvedRules tree test.config (mentions lines) = .ok resolved)
    (ruled : RulesOf tree test lines rules) :
    (prepare tree override test lines).map Request.commands = commandsOf rules lines := by
  obtain rfl := (rulesOf_iff found).mp ruled
  simp only [prepare, found, Except.mapError, bind, Except.bind]
  cases commandsOf _ lines <;> rfl

theorem commandsOf_eq_error_iff {obstacle : Obstacle} :
    commandsOf rules lines = .error obstacle ↔
      ∃ before line after cause, lines = before ++ line :: after ∧
        (∀ earlier ∈ before, ∃ text, substitute rules earlier.command = .ok text) ∧
        substitute rules line.command = .error cause ∧ obstacle = .template line.line cause := by
  -- A line passes the loop or stops it exactly as its template does.
  have goesOn : ∀ line, (∃ command, commandOf rules line = .ok command) ↔
      ∃ text, substitute rules line.command = .ok text := by
    intro line
    unfold commandOf
    cases substitute rules line.command <;> simp
  have fails : ∀ line, commandOf rules line = .error obstacle ↔
      ∃ cause, substitute rules line.command = .error cause ∧
        obstacle = .template line.line cause := by
    intro line
    unfold commandOf
    cases substitute rules line.command <;> simp [eq_comm]
  simp only [commandsOf, mapM_eq_error_iff, goesOn, fails, exists_and_left]

theorem exists_commandsOf_iff :
    (∃ commands, commandsOf rules lines = .ok commands) ↔
      ∀ line ∈ lines, ∃ text, substitute rules line.command = .ok text := by
  simp only [commandsOf_eq_ok_iff, exists_forall₂_iff, Substitutes]
  refine forall₂_congr fun line _ => ⟨?_, ?_⟩
  · rintro ⟨command, substituted, -⟩
    exact ⟨command.text, substituted⟩
  · rintro ⟨text, substituted⟩
    exact ⟨⟨text, line.propagates⟩, substituted, rfl⟩

end

/-! ### Plans -/

section

variable {tree : FileTree} {test : TestCase}

/-- The reason names the first run-line that cannot be substituted, and what is wrong with it. -/
def NamesFirstStuck (tree : FileTree) (test : TestCase) (reason : String) : Prop :=
  ∃ directives rules before line after cause, test.directives = .ok directives ∧
    RulesOf tree test directives.runLines rules ∧
    directives.runLines = before ++ line :: after ∧
    (∀ earlier ∈ before, ∃ text, substitute rules earlier.command = .ok text) ∧
    substitute rules line.command = .error cause ∧
    reason = "line " ++ toString line.line ++ ": " ++ cause.message

/-- What settles a test at a gate. -/
def Gate.Settles (tree : FileTree) (override : Option UInt64) (test : TestCase) (gate : Gate) :
    Prop :=
  ∃ reason, plan tree override test = .settled (.ofReason gate.kind reason) ∧
    (gate = .substituted → NamesFirstStuck tree test reason)

/-- At all gates but the last one, the kind of the result is all there is to say. -/
theorem Gate.settles_of_ne {override : Option UInt64} {gate : Gate} (other : gate ≠ .substituted)
    {reason : String}
    (settled : plan tree override test = .settled (.ofReason gate.kind reason)) :
    gate.Settles tree override test :=
  ⟨reason, settled, fun last => absurd last other⟩

theorem permitted_of_open {directives : TestDirectives} (read : test.directives = .ok directives)
    (through : ∀ gate : Gate, gate.place < Gate.found.place → gate.Open tree test) :
    Permitted test.config directives where
  supported := (Gate.open_iff read .supported).mp (through _ (by decide))
  notExcluded := (Gate.open_iff read .notExcluded).mp (through _ (by decide))
  required := (Gate.open_iff read .required).mp (through _ (by decide))
  nonempty := (Gate.open_iff read .nonempty).mp (through _ (by decide))

/-- A permitted test for which there can be no request is settled by what is in the way. -/
theorem plan_of_obstacle {override : Option UInt64} {directives : TestDirectives}
    {obstacle : Obstacle} (read : test.directives = .ok directives)
    (permitted : Permitted test.config directives)
    (stuck : prepare tree override test directives.runLines = .error obstacle) :
    plan tree override test = .settled (.ofReason .unresolved obstacle.message) := by
  have notExcluded := unsupportedMatch?_eq_none_iff.mpr permitted.notExcluded
  have required := missing_eq_nil_iff.mpr permitted.required
  simp [plan, read, permitted.supported, notExcluded, required, permitted.nonempty, stuck]

/-- A test that cannot be read is settled at the first gate, and at no other. -/
theorem settles_unreadable (override : Option UInt64) {gate : Gate}
    (first : gate.ClosedFirst tree test) {problem : Discovery.Problem}
    (unread : test.directives = .error problem) : gate.Settles tree override test := by
  have shut : ¬ Gate.readable.Open tree test := by
    rintro ⟨directives, read, -⟩
    cases unread.symm.trans read
  cases gate with
  | readable =>
    have settled : plan tree override test = .settled (.ofReason .unresolved problem.message) := by
      simp only [plan, unread]
    exact Gate.settles_of_ne (by decide) settled
  | supported | notExcluded | required | nonempty | found | substituted =>
    exact absurd (first.earlier .readable (by decide)) shut

/-- A test that gets to a gate that only looks at its configuration and its directives is settled
there if the gate is closed to it. -/
theorem settles_forbidden (override : Option UInt64) {gate : Gate}
    (first : gate.ClosedFirst tree test) {directives : TestDirectives}
    (read : test.directives = .ok directives) (before : gate.place < Gate.found.place) :
    gate.Settles tree override test := by
  have shut : ¬ gate.Asks tree test directives := fun asked =>
    first.closed ⟨directives, read, asked⟩
  have asked (other : Gate) (earlier : other.place < gate.place) :
      other.Asks tree test directives := (other.open_iff read).mp (first.earlier other earlier)
  -- The gates in front are open, so `plan` gets through to this one, and what its being shut means
  -- is the branch that `plan` takes here.
  cases gate with
  | readable => exact absurd trivial shut
  | supported =>
    have unsupported : test.config.unsupported = true := by simpa [Gate.Asks] using shut
    have settled : plan tree override test =
        .settled (.ofReason .unsupported "directory is marked unsupported") := by
      simp only [plan, read, unsupported, if_true]
    exact Gate.settles_of_ne (by decide) settled
  | notExcluded =>
    have supported : test.config.unsupported = false := asked .supported (by decide)
    rw [Gate.Asks, ← unsupportedMatch?_eq_none_iff, ← Ne, Option.ne_none_iff_exists'] at shut
    obtain ⟨expr, excluded⟩ := shut
    have settled : plan tree override test =
        .settled (.ofReason .unsupported ("UNSUPPORTED: " ++ expr.text)) := by
      simp only [plan, read, supported, excluded, Bool.false_eq_true, if_false]
    exact Gate.settles_of_ne (by decide) settled
  | required =>
    have supported : test.config.unsupported = false := asked .supported (by decide)
    have notExcluded := unsupportedMatch?_eq_none_iff.mpr (asked .notExcluded (by decide))
    rw [Gate.Asks, ← missing_eq_nil_iff] at shut
    have missing : (!(directives.missing test.config.hasFeature).isEmpty) = true := by
      simpa using shut
    have settled : plan tree override test = .settled (.ofReason .skipped ("missing features: " ++
        ", ".intercalate (directives.missing test.config.hasFeature))) := by
      simp only [plan, read, supported, notExcluded, missing, Bool.false_eq_true, if_false, if_true]
    exact Gate.settles_of_ne (by decide) settled
  | nonempty =>
    have supported : test.config.unsupported = false := asked .supported (by decide)
    have notExcluded := unsupportedMatch?_eq_none_iff.mpr (asked .notExcluded (by decide))
    have required := missing_eq_nil_iff.mpr (asked .required (by decide))
    have empty : directives.runLines = [] := not_not.mp shut
    have settled : plan tree override test =
        .settled (.ofReason .unresolved "test has no RUN: lines") := by
      simp [plan, read, supported, notExcluded, required, empty]
    exact Gate.settles_of_ne (by decide) settled
  | found | substituted => exact absurd before (by decide)

theorem settles_unfound (override : Option UInt64)
    (first : Gate.found.ClosedFirst tree test) {directives : TestDirectives}
    (read : test.directives = .ok directives) : Gate.found.Settles tree override test := by
  have shut := mt (Gate.open_iff read .found).mpr first.closed
  rw [asks_found_iff] at shut
  cases resolved : resolvedRules tree test.config (mentions directives.runLines) with
  | ok rules => exact absurd ⟨rules, resolved⟩ shut
  | error cause =>
    have stuck := prepare_missing override resolved
    exact Gate.settles_of_ne (by decide)
      (plan_of_obstacle read (permitted_of_open read first.earlier) stuck)

theorem settles_unsubstituted (override : Option UInt64)
    (first : Gate.substituted.ClosedFirst tree test) {directives : TestDirectives}
    (read : test.directives = .ok directives) : Gate.substituted.Settles tree override test := by
  obtain ⟨resolved, found⟩ :=
    asks_found_iff.mp ((Gate.open_iff read .found).mp (first.earlier .found (by decide)))
  have shut := mt (Gate.open_iff read .substituted).mpr first.closed
  have ruled := (rulesOf_iff found).mpr rfl
  have commands := prepare_found override found ruled
  cases prepared : prepare tree override test directives.runLines with
  | ok request =>
    -- Then every run-line would have been substituted, by the only rules there are.
    rw [prepared] at commands
    refine absurd (fun rules ruled' => ?_) shut
    rw [(rulesOf_iff found).mp ruled']
    exact exists_commandsOf_iff.mp ⟨_, commands.symm⟩
  | error obstacle =>
    rw [prepared] at commands
    obtain ⟨before, line, after, cause, split, goesOn, failed, rfl⟩ :=
      commandsOf_eq_error_iff.mp commands.symm
    have permitted := permitted_of_open read fun gate before =>
      first.earlier gate (Nat.lt_trans before (by decide))
    exact ⟨_, plan_of_obstacle read permitted prepared, fun _ =>
      ⟨directives, _, before, line, after, cause, read, ruled, split, goesOn, failed, rfl⟩⟩

theorem settles_of_closedFirst (override : Option UInt64) {gate : Gate}
    (first : gate.ClosedFirst tree test) : gate.Settles tree override test := by
  cases read : test.directives with
  | error problem => exact settles_unreadable override first read
  | ok directives =>
    cases gate with
    | found => exact settles_unfound override first read
    | substituted => exact settles_unsubstituted override first read
    | readable | supported | notExcluded | required | nonempty =>
      exact settles_forbidden override first read (by decide)

/-- A test that gets through all gates is run. -/
theorem plan_of_open (override : Option UInt64)
    (through : ∀ gate : Gate, gate.Open tree test) :
    ∃ directives request, test.directives = .ok directives ∧
      prepare tree override test directives.runLines = .ok request ∧
      plan tree override test = .run directives request := by
  obtain ⟨directives, read, -⟩ := through .readable
  obtain ⟨resolved, found⟩ := asks_found_iff.mp ((Gate.open_iff read .found).mp (through .found))
  have ruled := (rulesOf_iff found).mpr rfl
  obtain ⟨commands, made⟩ := exists_commandsOf_iff.mpr
    ((Gate.open_iff read .substituted).mp (through .substituted) _ ruled)
  rw [← prepare_found override found ruled] at made
  obtain ⟨request, prepared, -⟩ := map_eq_ok made
  exact ⟨directives, request, read, prepared,
    plan_of_permitted read (permitted_of_open read fun gate _ => through gate) prepared⟩

end

/-! ### Evaluations -/

/-- The timeout given for the whole run counts, or else that of the configuration, unless it is
zero. -/
theorem effectiveTimeout_eq_some_iff {override configured : Option UInt64} {span : Duration} :
    effectiveTimeout override configured = some span ↔
      ∃ seconds, (override = some seconds ∨ override = none ∧ configured = some seconds) ∧
        seconds ≠ 0 ∧ span = .ofSeconds seconds.toNat := by
  have positive (seconds : UInt64) : 0 < seconds ↔ seconds ≠ 0 := by
    rw [UInt64.lt_iff_toNat_lt, ne_eq, ← UInt64.toNat_inj]
    exact Nat.pos_iff_ne_zero
  simp only [effectiveTimeout, Option.map_eq_some_iff, Option.filter_eq_some_iff,
    Option.or_eq_some_iff, decide_eq_true_eq, positive, and_assoc]
  exact exists_congr fun seconds => by rw [eq_comm (a := span)]

/-- An executor is handed at most one request while a test is evaluated, and that just if all gates
are open to the test. The request has one command for each run-line, in order and with its
propagation, and the timeout that counts. Otherwise the first gate that is closed decides the
kind of the result; and if that is the last gate, the reason names the first run-line that
cannot be substituted. -/
theorem evaluate_gated {σ : Type} (executor : Executor σ) (override : Option UInt64)
    (test : TestCase) (world : σ) :
    (executor.requests override test world).length ≤ 1 ∧
    (executor.requests override test world ≠ [] ↔
      ∀ gate : Gate, gate.Open (executor.files world) test) ∧
    (∀ request ∈ executor.requests override test world, ∃ directives,
      test.directives = .ok directives ∧
      Prepared (executor.files world) override test directives.runLines request ∧
      ∀ span, request.timeout = some span ↔ ∃ seconds,
        (override = some seconds ∨ override = none ∧ test.config.timeoutSecs = some seconds) ∧
          seconds ≠ 0 ∧ span = .ofSeconds seconds.toNat) ∧
    (executor.requests override test world = [] → ∃ gate reason,
      Gate.ClosedFirst (executor.files world) test gate ∧
      (evaluate executor override test world).1 = some (.ofReason gate.kind reason) ∧
      (gate = .substituted → NamesFirstStuck (executor.files world) test reason)) := by
  -- Either every gate is open and the plan is a run, or the first one that is shut settles the
  -- test.
  rcases Gate.open_or_closedFirst (executor.files world) test with through | ⟨gate, first⟩
  · obtain ⟨directives, request, read, prepared, planned⟩ := plan_of_open override through
    have once := Executor.requests_run planned
    rw [once]
    refine ⟨Nat.le_refl 1, ⟨fun _ => through, fun _ => List.cons_ne_nil _ _⟩, ?_, nofun⟩
    intro request' member
    obtain rfl := List.mem_singleton.mp member
    have prepared := prepare_eq_ok_iff.mp prepared
    exact ⟨directives, read, prepared, fun span => by
      rw [prepared.timeout, effectiveTimeout_eq_some_iff]⟩
  · obtain ⟨reason, settled, names⟩ := settles_of_closedFirst override first
    rw [Executor.requests_settled settled, evaluate_settled executor world settled]
    refine ⟨Nat.zero_le 1, ⟨fun made => absurd rfl made, fun through => ?_⟩, nofun, fun _ => ?_⟩
    · exact absurd (through gate) first.closed
    · exact ⟨gate, reason, first, rfl, names⟩

end SuiteRunner.Run
