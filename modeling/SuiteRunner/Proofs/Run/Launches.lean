import SuiteRunner.Proofs.Except
import SuiteRunner.Run.Evaluation

/-!
# What is launched

A host can be made to remember what it launches, which changes nothing else. The commands of a
request pass if and only if each of them is launched once, in order, ends by itself, and
does not fail.
-/

namespace SuiteRunner.Run

open Files

/-! ### One command -/

/-- What a launched command means for its pipeline: the answer with which the pipeline ends, or
the record with which it goes on. -/
def Launched.judge (program : String) (command : Command) :
    Launched → Except ExecError PipelineReport ⊕ CommandRecord
  | .notStarted cause => .inl (.error (.spawn program cause))
  | .notWaitedFor cause => .inl (.error (.wait command.text cause))
  | .ended finished =>
    let record := finished.record command.text
    match finished.ending with
    | .expired => .inl (.ok ⟨.timedOut, [record]⟩)
    | .killed => .inl (.ok ⟨.interrupted, [record]⟩)
    | .exited code =>
      if command.fails code then .inl (.ok ⟨.failed, [record]⟩) else .inr record

/-- A command that ended by itself and does not fail the test. -/
def Launched.Succeeded (command : Command) (launched : Launched) : Prop :=
  ∃ finished code, launched = .ended finished ∧ finished.ending = .exited code ∧
    (command.propagates = true → code = some 0)

theorem Command.fails_eq_false_iff {command : Command} {code : Option Int} :
    command.fails code = false ↔ (command.propagates = true → code = some 0) := by
  cases propagates : command.propagates <;> simp [fails, propagates]

/-- A pipeline goes on exactly behind a command that succeeded. -/
theorem Launched.judge_goesOn_iff {program : String} {command : Command} {launched : Launched} :
    (∃ record, launched.judge program command = .inr record) ↔ launched.Succeeded command := by
  constructor
  · rintro ⟨record, judged⟩
    cases launched with
    | notStarted | notWaitedFor => cases judged
    | ended finished =>
      simp only [judge] at judged
      split at judged
      next => cases judged
      next => cases judged
      next code exited =>
        split at judged
        next => cases judged
        next succeeds =>
          exact ⟨finished, code, rfl, exited,
            Command.fails_eq_false_iff.mp (Bool.not_eq_true _ ▸ succeeds)⟩
  · rintro ⟨finished, code, rfl, exited, succeeds⟩
    refine ⟨finished.record command.text, ?_⟩
    rw [← Command.fails_eq_false_iff] at succeeds
    simp [judge, exited, succeeds]

/-- A command with which a pipeline ends does not make it pass. -/
theorem Launched.judge_ends {program : String} {command : Command} {launched : Launched}
    {report : PipelineReport} (judged : launched.judge program command = .inl (.ok report)) :
    report.outcome ≠ .passed := by
  cases launched with
  | notStarted | notWaitedFor => cases judged
  | ended finished =>
    simp only [judge] at judged
    split at judged
    next => cases judged; simp
    next => cases judged; simp
    next code exited =>
      split at judged
      next => cases judged; simp
      next => cases judged

namespace Host

variable {σ : Type}

section

variable {host : Host σ} {launch : Launch} {command : Command} {commands : List Command}
variable {world after : σ} {launched : Launched}

theorem runCommands_killed (requested : host.killRequested world = true) :
    host.runCommands launch (command :: commands) world = (.ok ⟨.interrupted, []⟩, world) := by
  rw [runCommands, if_pos requested]

/-- The loop decides about a launched command as `judge` does. -/
theorem runCommands_cons (going : host.killRequested world = false)
    (begun : host.launch (launch.ofCommand command) world = (launched, after)) :
    host.runCommands launch (command :: commands) world =
      match launched.judge launch.program command with
      | .inl answer => (answer, after)
      | .inr record =>
        ((host.runCommands launch commands after).1.map fun report =>
          { report with runs := record :: report.runs },
        (host.runCommands launch commands after).2) := by
  simp only [runCommands, going, begun]
  cases launched with
  | notStarted | notWaitedFor => rfl
  | ended finished =>
    simp only [Launched.judge]
    cases finished.ending with
    | expired | killed => rfl
    | exited code => cases fails : command.fails code <;> simp [fails]

theorem runCommands_ends (going : host.killRequested world = false)
    (begun : host.launch (launch.ofCommand command) world = (launched, after))
    {answer : Except ExecError PipelineReport}
    (judged : launched.judge launch.program command = .inl answer) :
    host.runCommands launch (command :: commands) world = (answer, after) := by
  rw [runCommands_cons going begun, judged]

theorem runCommands_goesOn (going : host.killRequested world = false)
    (begun : host.launch (launch.ofCommand command) world = (launched, after))
    {record : CommandRecord} (judged : launched.judge launch.program command = .inr record) :
    host.runCommands launch (command :: commands) world =
      ((host.runCommands launch commands after).1.map fun report =>
        { report with runs := record :: report.runs },
      (host.runCommands launch commands after).2) := by
  rw [runCommands_cons going begun, judged]

end

/-- The executor that hands every request to a host. -/
def executor (host : Host σ) (files : σ → FileTree) : Executor σ where
  files
  run := host.pipeline
  aborted _ := false

/-! ### Remembering what is launched -/

/-- A host that also remembers what it has launched, and what came of it. -/
def recorded (host : Host σ) : Host (σ × List (Launch × Launched)) where
  now world := host.now world.1
  killRequested world := host.killRequested world.1
  makeDirectories path world :=
    (host.makeDirectories path world.1).map fun after => (after, world.2)
  launch launch world :=
    let (launched, after) := host.launch launch world.1
    (launched, after, world.2 ++ [(launch, launched)])

theorem recorded_launch {host : Host σ} {launch : Launch} {world after : σ} {launched : Launched}
    (begun : host.launch launch world = (launched, after)) (log : List (Launch × Launched)) :
    host.recorded.launch launch (world, log) = (launched, after, log ++ [(launch, launched)]) := by
  simp only [recorded, begun]

theorem runCommands_recorded (host : Host σ) (launch : Launch) (commands : List Command)
    (world : σ) (log : List (Launch × Launched)) :
    (host.recorded.runCommands launch commands (world, log)).map id Prod.fst =
      host.runCommands launch commands world := by
  induction commands generalizing world log with
  | nil => rfl
  | cons command commands ih =>
    -- The two hosts are asked the same questions, and the log only grows, so each branch of one is
    -- the branch of the other.
    cases going : host.killRequested world with
    | true =>
      have requested : host.recorded.killRequested (world, log) = true := going
      rw [runCommands_killed going, runCommands_killed requested]
      rfl
    | false =>
      have free : host.recorded.killRequested (world, log) = false := going
      rcases begun : host.launch (launch.ofCommand command) world with ⟨launched, after⟩
      have noted := recorded_launch begun log
      cases judged : launched.judge launch.program command with
      | inl answer =>
        rw [runCommands_ends going begun judged, runCommands_ends free noted judged]
        rfl
      | inr record =>
        rw [runCommands_goesOn going begun judged, runCommands_goesOn free noted judged, ← ih]
        rfl

/-- Some of the first commands are launched, each once and in order. -/
theorem exists_launched (host : Host σ) (launch : Launch) (commands : List Command) (world : σ)
    (log : List (Launch × Launched)) :
    ∃ entries, (host.recorded.runCommands launch commands (world, log)).2.2 = log ++ entries ∧
      entries.map Prod.fst <+: commands.map launch.ofCommand := by
  induction commands generalizing world log with
  | nil => exact ⟨[], (List.append_nil _).symm, List.nil_prefix⟩
  | cons command commands ih =>
    cases going : host.recorded.killRequested (world, log) with
    | true =>
      rw [runCommands_killed going]
      exact ⟨[], (List.append_nil _).symm, List.nil_prefix⟩
    | false =>
      rcases begun : host.launch (launch.ofCommand command) world with ⟨launched, after⟩
      have noted := recorded_launch begun log
      cases judged : launched.judge launch.program command with
      | inl answer =>
        rw [runCommands_ends going noted judged]
        exact ⟨[_], rfl, List.cons_prefix_cons.mpr ⟨rfl, List.nil_prefix⟩⟩
      | inr record =>
        rw [runCommands_goesOn going noted judged]
        obtain ⟨entries, same, first⟩ :=
          ih after (log ++ [(launch.ofCommand command, launched)])
        rw [List.append_assoc] at same
        exact ⟨_, same, List.cons_prefix_cons.mpr ⟨rfl, first⟩⟩

/-- Commands pass if and only if each of them is launched once, in order, and succeeds. -/
theorem runCommands_passed_iff (host : Host σ) (launch : Launch) (commands : List Command)
    (world : σ) (log : List (Launch × Launched)) :
    (∃ report, (host.recorded.runCommands launch commands (world, log)).1 = .ok report ∧
        report.outcome = .passed) ↔
      ∃ entries, (host.recorded.runCommands launch commands (world, log)).2.2 = log ++ entries ∧
        List.Forall₂ (fun command entry => entry.2.Succeeded command) commands entries := by
  induction commands generalizing world log with
  | nil => simp [runCommands]
  | cons command commands ih =>
    cases going : host.recorded.killRequested (world, log) with
    | true =>
      rw [runCommands_killed going]
      constructor
      · rintro ⟨_, answer, passed⟩
        cases answer
        cases passed
      · rintro ⟨entries, same, matched⟩
        rw [List.self_eq_append_right.mp same] at matched
        cases matched
    | false =>
      rcases begun : host.launch (launch.ofCommand command) world with ⟨launched, after⟩
      have noted := recorded_launch begun log
      cases judged : launched.judge launch.program command with
      | inl answer =>
        -- The pipeline ends here: it has not passed, and this entry has not succeeded.
        rw [runCommands_ends going noted judged]
        constructor
        · rintro ⟨report, rfl, passed⟩
          exact absurd passed (Launched.judge_ends judged)
        · rintro ⟨entries, same, matched⟩
          rw [← List.append_cancel_left same] at matched
          obtain ⟨succeeded, -⟩ := List.forall₂_cons.mp matched
          obtain ⟨record, goesOn⟩ := Launched.judge_goesOn_iff.mpr succeeded
          rw [judged] at goesOn
          cases goesOn
      | inr record =>
        -- It goes on, and what is launched from here on is added behind this entry.
        rw [runCommands_goesOn going noted judged]
        have succeeded := Launched.judge_goesOn_iff.mp ⟨record, judged⟩
        have rest := ih after (log ++ [(launch.ofCommand command, launched)])
        constructor
        · rintro ⟨report, answer, passed⟩
          obtain ⟨report, found, rfl⟩ := map_eq_ok answer
          obtain ⟨entries, same, matched⟩ := rest.mp ⟨report, found, passed⟩
          rw [List.append_assoc] at same
          exact ⟨_ :: entries, same, .cons succeeded matched⟩
        · rintro ⟨entries, same, matched⟩
          -- The first entry is of this launch, since the others were added behind it.
          obtain ⟨later, added, -⟩ := exists_launched host launch commands after
            (log ++ [(launch.ofCommand command, launched)])
          have split : entries = (launch.ofCommand command, launched) :: later := by
            rw [List.append_assoc] at added
            exact List.append_cancel_left (same.symm.trans added)
          subst split
          obtain ⟨-, matched⟩ := List.forall₂_cons.mp matched
          obtain ⟨report, found, passed⟩ := rest.mpr ⟨later, added, matched⟩
          refine ⟨{ report with runs := record :: report.runs }, ?_, passed⟩
          rw [found]
          rfl

end Host

/-! ### Requests -/

def Attempt.ofAnswer : Except ExecError PipelineReport → Attempt
  | .ok report => .reported report
  | .error error => .refused error

theorem Attempt.ofAnswer_eq_reported_iff {answer : Except ExecError PipelineReport}
    {report : PipelineReport} : ofAnswer answer = .reported report ↔ answer = .ok report := by
  cases answer <;> simp [ofAnswer]

theorem Attempt.ofAnswer_eq {σ : Type} (answered : Except ExecError PipelineReport × σ) :
    (match answered with
      | (.error error, world) => (refused error, world)
      | (.ok report, world) => (reported report, world)) = answered.map ofAnswer id := by
  rcases answered with ⟨_ | _, _⟩ <;> rfl

/-- A launch has what all commands of a request share. -/
structure Launch.Serves (launch : Launch) (request : Request) : Prop where
  shell : launch.program :: launch.arguments = request.shell
  directory : launch.directory = request.directory
  env : launch.env = request.env

/-- A command was launched as a request says, and it succeeded. -/
structure Ran (request : Request) (command : Command) (entry : Launch × Launched) : Prop where
  line : entry.1.program :: entry.1.arguments = request.shell ++ [command.text]
  directory : entry.1.directory = request.directory
  env : entry.1.env = request.env
  succeeded : entry.2.Succeeded command

namespace Host

variable {σ : Type}

/-- The commands of a request are run: there is a shell, the directory can be made, and the
deadline is an instant. `launch` has what the commands share, and `begun` is the world in which
the first of them is due. -/
structure Begins (host : Host σ) (request : Request) (world : σ) (launch : Launch) (begun : σ) :
    Prop where
  serves : launch.Serves request
  made : host.makeDirectories request.directory world = .ok begun
  deadline : host.deadline? request.timeout begun = some launch.deadline

/-- A request comes to nothing before any command is launched, or its commands are run. -/
theorem pipeline_cases (host : Host σ) (request : Request) (world : σ)
    (log : List (Launch × Launched)) :
    ((∀ launch begun, ¬ host.Begins request world launch begun) ∧
      ∃ attempt after, (∀ report, attempt ≠ .reported report) ∧
        host.pipeline request world = (attempt, after) ∧
        host.recorded.pipeline request (world, log) = (attempt, after, log)) ∨
    ∃ launch begun, host.Begins request world launch begun ∧
      host.pipeline request world =
        (host.runCommands launch request.commands begun).map Attempt.ofAnswer id ∧
      host.recorded.pipeline request (world, log) =
        (host.recorded.runCommands launch request.commands (begun, log)).map
          Attempt.ofAnswer id := by
  unfold pipeline
  -- Up to the deadline nothing is launched, so both hosts come to the same end.
  cases shell : request.shell with
  | nil =>
    refine Or.inl ⟨fun launch begun begins => ?_, .refused .emptyShell, world, by simp, rfl, rfl⟩
    exact List.cons_ne_nil _ _ (begins.serves.shell.trans shell)
  | cons program arguments =>
    cases made : host.makeDirectories request.directory world with
    | error cause =>
      refine Or.inl ⟨fun launch begun begins => ?_,
        .refused (.outputDirectory request.directory cause), world, by simp, rfl, ?_⟩
      · cases made.symm.trans begins.made
      · simp [recorded, made, Except.map]
    | ok begun =>
      have noted : host.recorded.makeDirectories request.directory (world, log) =
          .ok (begun, log) := by
        simp [recorded, made, Except.map]
      have same : host.recorded.deadline? request.timeout (begun, log) =
          host.deadline? request.timeout begun := rfl
      simp only [noted, same]
      cases due : host.deadline? request.timeout begun with
      | none =>
        refine Or.inl ⟨fun launch begun' begins => ?_, .lost, begun, by simp, rfl, rfl⟩
        cases made.symm.trans begins.made
        cases due.symm.trans begins.deadline
      | some deadline =>
        let launch : Launch :=
          { program, arguments, directory := request.directory, env := request.env, deadline }
        refine Or.inr ⟨launch, begun, ⟨⟨shell.symm, rfl, rfl⟩, made, due⟩, ?_, ?_⟩
        · exact Attempt.ofAnswer_eq _
        · exact Attempt.ofAnswer_eq _

theorem pipeline_recorded (host : Host σ) (request : Request) (world : σ)
    (log : List (Launch × Launched)) :
    (host.recorded.pipeline request (world, log)).map id Prod.fst =
      host.pipeline request world := by
  rcases host.pipeline_cases request world log with
    ⟨-, attempt, after, -, plain, noted⟩ | ⟨launch, begun, -, plain, noted⟩
  · rw [plain, noted]
    rfl
  · rw [plain, noted, ← host.runCommands_recorded launch request.commands begun log]
    rfl

theorem ran_of_launched {launch : Launch} {request : Request} (serves : launch.Serves request)
    {commands : List Command} {entries : List (Launch × Launched)}
    (first : entries.map Prod.fst <+: commands.map launch.ofCommand)
    (matched : List.Forall₂ (fun command entry => entry.2.Succeeded command) commands entries) :
    List.Forall₂ (Ran request) commands entries := by
  induction matched with
  | nil => exact .nil
  | cons succeeded matched ih =>
    -- Every entry is the launch of its own command, whose data are those of the request.
    obtain ⟨same, first⟩ := List.cons_prefix_cons.mp first
    refine .cons ⟨?_, ?_, ?_, succeeded⟩ (ih first)
    · rw [same, ← serves.shell]
      rfl
    · rw [same]
      exact serves.directory
    · rw [same]
      exact serves.env

/-- A request that has commands passes if and only if each of its commands is launched once, as
the request says and in order, and succeeds. -/
theorem pipeline_passed_iff (host : Host σ) {request : Request}
    (nonempty : request.commands ≠ []) (world : σ) :
    (∃ report, (host.recorded.pipeline request (world, [])).1 = .reported report ∧
        report.outcome = .passed) ↔
      List.Forall₂ (Ran request) request.commands
        (host.recorded.pipeline request (world, [])).2.2 := by
  rcases host.pipeline_cases request world [] with
    ⟨-, attempt, after, unreported, -, noted⟩ | ⟨launch, begun, begins, -, noted⟩
  · rw [noted]
    constructor
    · rintro ⟨report, reported, -⟩
      exact absurd reported (unreported report)
    · intro matched
      exact absurd (List.forall₂_nil_right_iff.mp matched) nonempty
  · rw [noted]
    -- The log was empty, so it holds just the entries of this request.
    have passed := host.runCommands_passed_iff launch request.commands begun []
    obtain ⟨entries, log, first⟩ := host.exists_launched launch request.commands begun []
    rw [List.nil_append] at log
    simp only [List.nil_append, log, exists_eq_left'] at passed
    simp only [Prod.map, id_eq, log]
    constructor
    · rintro ⟨report, reported, good⟩
      have answer := Attempt.ofAnswer_eq_reported_iff.mp reported
      exact ran_of_launched begins.serves first (passed.mp ⟨report, answer, good⟩)
    · intro ran
      obtain ⟨report, answer, good⟩ := passed.mpr (ran.imp fun _ _ ran => ran.succeeded)
      exact ⟨report, Attempt.ofAnswer_eq_reported_iff.mpr answer, good⟩

end Host

end SuiteRunner.Run
