import SuiteRunner.Proofs.Run.Launches

/-!
# Outcomes of pipelines

A pipeline launches its commands in order and stops at the first one that was stopped or that
fails the test, or where it finds the kill switch up. Which of these it was is a course of
the commands, and the outcome tells it exactly: each of the four outcomes has a condition on
how the launched commands ended that holds with that outcome and with no other.
-/

namespace SuiteRunner.Run

open Files

/-! ### Courses -/

theorem Launched.succeeded_ended_iff {command : Command} {ended : Ended} :
    (Launched.ended ended).Succeeded command ↔
      (∃ code, ended.ending = .exited code) ∧
        (command.propagates = true → ended.ending = .exited (some 0)) := by
  constructor
  · rintro ⟨finished, code, same, exited, succeeds⟩
    cases same
    exact ⟨⟨code, exited⟩, fun propagates => exited.trans (congrArg _ (succeeds propagates))⟩
  · rintro ⟨⟨code, exited⟩, succeeds⟩
    refine ⟨ended, code, rfl, exited, fun propagates => ?_⟩
    exact Ending.exited.inj (exited.symm.trans (succeeds propagates))

/-- The course that commands take: those that are launched, each with how it ended, and the
outcome of them all. `raised` says whether the kill switch is up when nothing more is launched. -/
inductive Course (raised : Bool) : List Command → List (Command × Ended) → Outcome → Prop where
  | done : Course raised [] [] .passed
  | raised {command : Command} {commands : List Command} (up : raised = true) :
      Course raised (command :: commands) [] .interrupted
  | expired {command : Command} {commands : List Command} {ended : Ended}
      (stopped : ended.ending = .expired) :
      Course raised (command :: commands) [(command, ended)] .timedOut
  | killed {command : Command} {commands : List Command} {ended : Ended}
      (stopped : ended.ending = .killed) :
      Course raised (command :: commands) [(command, ended)] .interrupted
  | failed {command : Command} {commands : List Command} {ended : Ended} {code : Option Int}
      (exited : ended.ending = .exited code) (propagates : command.propagates = true)
      (failing : code ≠ some 0) :
      Course raised (command :: commands) [(command, ended)] .failed
  | next {command : Command} {commands : List Command} {ended : Ended}
      {finished : List (Command × Ended)} {outcome : Outcome}
      (succeeded : (Launched.ended ended).Succeeded command)
      (course : Course raised commands finished outcome) :
      Course raised (command :: commands) ((command, ended) :: finished) outcome

/-- A command that is waited for ends the course, or it has succeeded and the course goes on. -/
theorem Launched.judge_ended (program : String) (command : Command) (ended : Ended) :
    (∃ outcome, (Launched.ended ended).judge program command =
        .inl (.ok ⟨outcome, [ended.record command.text]⟩) ∧
        ∀ raised commands, Course raised (command :: commands) [(command, ended)] outcome) ∨
      ((Launched.ended ended).judge program command = .inr (ended.record command.text) ∧
        (Launched.ended ended).Succeeded command) := by
  cases ending : ended.ending with
  | expired =>
    exact .inl ⟨.timedOut, by simp only [judge, ending], fun _ _ => .expired ending⟩
  | killed =>
    exact .inl ⟨.interrupted, by simp only [judge, ending], fun _ _ => .killed ending⟩
  | exited code =>
    cases fails : command.fails code with
    | true =>
      obtain ⟨failing, propagates⟩ : code ≠ some 0 ∧ command.propagates = true := by
        simpa [Command.fails] using fails
      exact .inl ⟨.failed, by simp only [judge, ending, fails, if_true],
        fun _ _ => .failed ending propagates failing⟩
    | false =>
      have goesOn : (Launched.ended ended).judge program command =
          .inr (ended.record command.text) := by
        simp only [judge, ending, fails, Bool.false_eq_true, if_false]
      exact .inr ⟨goesOn, judge_goesOn_iff.mp ⟨_, goesOn⟩⟩

/-! ### What an outcome tells -/

/-- A further command is due: one is left, and all that were launched have succeeded. -/
def Due (commands : List Command) (finished : List (Command × Ended)) : Prop :=
  finished.length < commands.length ∧
    ∀ entry ∈ finished, (Launched.ended entry.2).Succeeded entry.1

/-- What the outcome of commands tells of those that were launched. -/
structure Outcome.Tells (outcome : Outcome) (commands : List Command)
    (finished : List (Command × Ended)) (raised : Bool) : Prop where
  passed : outcome = .passed ↔
    finished.map Prod.fst = commands ∧ (∀ entry ∈ finished, ∃ code, entry.2.ending = .exited code) ∧
      ∀ entry ∈ finished, entry.1.propagates = true → entry.2.ending = .exited (some 0)
  failed : outcome = .failed ↔
    ∃ last ∈ finished.getLast?, last.1.propagates = true ∧
      (∃ code, last.2.ending = .exited code ∧ code ≠ some 0) ∧
      ∀ entry ∈ finished.dropLast, entry.1.propagates = true → entry.2.ending = .exited (some 0)
  timedOut : outcome = .timedOut ↔ ∃ last ∈ finished.getLast?, last.2.ending = .expired
  interrupted : outcome = .interrupted ↔
    (∃ last ∈ finished.getLast?, last.2.ending = .killed) ∨ (Due commands finished ∧ raised = true)

theorem exists_getLast?_cons_iff {α : Type} {entry : α} {entries : List α} {holds : α → Prop}
    (other : ¬ holds entry) :
    (∃ last ∈ (entry :: entries).getLast?, holds last) ↔ ∃ last ∈ entries.getLast?, holds last := by
  cases entries with
  | nil => simp [other]
  | cons => rw [List.getLast?_cons_cons]

namespace Course

variable {raised : Bool} {commands : List Command} {finished : List (Command × Ended)}
  {outcome : Outcome}

theorem launched (course : Course raised commands finished outcome) :
    finished.map Prod.fst <+: commands := by
  induction course with
  | done | raised => exact List.nil_prefix
  | expired | killed | failed => exact List.cons_prefix_cons.mpr ⟨rfl, List.nil_prefix⟩
  | next _ _ first => exact List.cons_prefix_cons.mpr ⟨rfl, first⟩

theorem passed_iff (course : Course raised commands finished outcome) :
    outcome = .passed ↔
      finished.map Prod.fst = commands ∧
        ∀ entry ∈ finished, (Launched.ended entry.2).Succeeded entry.1 := by
  induction course with
  | done => simp
  | raised => simp
  | expired stopped | killed stopped => simp [Launched.succeeded_ended_iff, stopped]
  | failed exited propagates failing =>
    simp [Launched.succeeded_ended_iff, exited, propagates, failing]
  | next succeeded _ ih => simp [ih, succeeded]

theorem timedOut_iff (course : Course raised commands finished outcome) :
    outcome = .timedOut ↔ ∃ last ∈ finished.getLast?, last.2.ending = .expired := by
  induction course with
  | done | raised => simp
  | expired stopped | killed stopped => simp [stopped]
  | failed exited => simp [exited]
  | next succeeded _ ih =>
    obtain ⟨_, _, ended, exited, _⟩ := succeeded
    cases ended
    rw [ih, exists_getLast?_cons_iff (by simp [exited])]

theorem failed_iff (course : Course raised commands finished outcome) :
    outcome = .failed ↔
      ∃ last ∈ finished.getLast?, last.1.propagates = true ∧
        ∃ code, last.2.ending = .exited code ∧ code ≠ some 0 := by
  -- By induction on the course. Each constructor but `next` ends with its last command, which has
  -- one way of ending; `next` hands the question on, since a command that succeeded did not fail.
  induction course with
  | done | raised => simp
  | expired stopped | killed stopped => simp [stopped]
  | failed exited propagates failing => simp [exited, propagates, failing]
  | next succeeded _ ih =>
    obtain ⟨_, _, ended, exited, succeeds⟩ := succeeded
    cases ended
    rw [ih, exists_getLast?_cons_iff]
    rintro ⟨propagates, code, exited', failing⟩
    cases exited.symm.trans exited'
    exact failing (succeeds propagates)

theorem interrupted_iff (course : Course raised commands finished outcome) :
    outcome = .interrupted ↔
      (∃ last ∈ finished.getLast?, last.2.ending = .killed) ∨
        (Due commands finished ∧ raised = true) := by
  induction course with
  | done => simp [Due]
  | raised up => simp [Due, up]
  | expired stopped | killed stopped => simp [Due, Launched.succeeded_ended_iff, stopped]
  | failed exited propagates failing =>
    simp [Due, Launched.succeeded_ended_iff, exited, propagates, failing]
  | @next command commands ended finished outcome succeeded _ ih =>
    have due : Due (command :: commands) ((command, ended) :: finished) ↔
        Due commands finished := by
      simp [Due, succeeded]
    -- The command that succeeded ended by itself, so it is no witness of a killed one, and the rest
    -- decides.
    obtain ⟨_, _, same, exited, _⟩ := succeeded
    cases same
    rw [ih, due, exists_getLast?_cons_iff (by simp [exited])]

/-- All but the last of the commands that were launched have succeeded. -/
theorem earlier (course : Course raised commands finished outcome) :
    ∀ entry ∈ finished.dropLast, (Launched.ended entry.2).Succeeded entry.1 := by
  induction course with
  | done | raised | expired | killed | failed => simp
  | @next _ _ _ finished _ succeeded _ ih =>
    cases finished with
    | nil => simp
    | cons => exact List.forall_mem_cons.mpr ⟨succeeded, ih⟩

theorem tells (course : Course raised commands finished outcome) :
    outcome.Tells commands finished raised where
  passed := by simp only [course.passed_iff, Launched.succeeded_ended_iff, forall_and]
  failed := by
    rw [course.failed_iff]
    constructor
    · rintro ⟨last, member, propagates, failing⟩
      exact ⟨last, member, propagates, failing, fun entry member =>
        (Launched.succeeded_ended_iff.mp (course.earlier entry member)).2⟩
    · rintro ⟨last, member, propagates, failing, -⟩
      exact ⟨last, member, propagates, failing⟩
  timedOut := course.timedOut_iff
  interrupted := course.interrupted_iff

end Course

/-! ### Commands -/

namespace Host

variable {σ : Type}

/-- Commands that are started and waited for take a course, and their records are reported. -/
theorem runCommands_course (host : Host σ) (launch : Launch) (commands : List Command)
    (world : σ) (log : List (Launch × Launched))
    (served : ∀ entry ∈ (host.recorded.runCommands launch commands (world, log)).2.2,
      ∃ ended, entry.2 = .ended ended) :
    ∃ outcome finished after,
      host.recorded.runCommands launch commands (world, log) =
        (.ok ⟨outcome, finished.map fun (command, ended) => ended.record command.text⟩, after,
          log ++ finished.map fun (command, ended) => (launch.ofCommand command, .ended ended)) ∧
      Course (host.killRequested after) commands finished outcome := by
  -- By induction on the commands, with the world and the log left general: each launch changes the
  -- one and adds to the other.
  induction commands generalizing world log with
  | nil => exact ⟨.passed, [], world, by simp [runCommands], .done⟩
  | cons command commands ih =>
    cases going : host.killRequested world with
    | true =>
      have requested : host.recorded.killRequested (world, log) = true := going
      exact ⟨.interrupted, [], world, by simp [runCommands_killed requested], .raised going⟩
    | false =>
      have free : host.recorded.killRequested (world, log) = false := going
      rcases begun : host.launch (launch.ofCommand command) world with ⟨launched, after⟩
      have noted := recorded_launch begun log
      -- What could not be started or waited for would end the pipeline with an entry that `served`
      -- excludes.
      obtain ⟨ended, same⟩ : ∃ ended, launched = .ended ended := by
        cases judged : launched.judge launch.program command with
        | inl answer =>
          rw [runCommands_ends free noted judged] at served
          exact served (launch.ofCommand command, launched) (by simp)
        | inr record =>
          obtain ⟨ended, _, same, -⟩ := Launched.judge_goesOn_iff.mp ⟨record, judged⟩
          exact ⟨ended, same⟩
      cases same
      obtain ⟨outcome, judged, course⟩ | ⟨judged, succeeded⟩ :=
        Launched.judge_ended launch.program command ended
      · rw [runCommands_ends free noted judged]
        exact ⟨outcome, [(command, ended)], after, rfl, course _ commands⟩
      · rw [runCommands_goesOn free noted judged] at served ⊢
        obtain ⟨outcome, finished, final, ran, course⟩ := ih after _ served
        refine ⟨outcome, (command, ended) :: finished, final, ?_, .next succeeded course⟩
        rw [ran]
        simp [Except.map]

end Host

/-! ### Requests -/

theorem Ended.record_exitCode_eq_none_iff {ended : Ended} {command : String} :
    (ended.record command).exitCode = none ↔
      ended.ending = .expired ∨ ended.ending = .killed ∨ ended.ending = .exited none := by
  cases ending : ended.ending <;> simp [record, Ending.exitCode, ending]

namespace Host

variable {σ : Type}

/-- The launches of a request, with what came of them. -/
def launchesOf (host : Host σ) (request : Request) (world : σ) : List (Launch × Launched) :=
  (host.recorded.pipeline request (world, [])).2.2

/-- A request whose commands are not run has no report, and nothing is launched for it. One whose
commands are run, all of them being started and waited for, has a report. Then some of the first
commands are launched, each once and in order, and nothing else; the report has their records;
its outcome tells how they ended; and a record is without an exit code just if its command was
stopped or ended by a signal. -/
theorem pipeline_tells (host : Host σ) (request : Request) (world : σ)
    (served : ∀ entry ∈ host.launchesOf request world, ∃ ended, entry.2 = .ended ended) :
    ((∀ launch begun, ¬ host.Begins request world launch begun) ∧
      (∀ report, (host.pipeline request world).1 ≠ .reported report) ∧
      host.launchesOf request world = []) ∨
    ∃ launch begun, host.Begins request world launch begun ∧
      ∃ report after finished, host.pipeline request world = (.reported report, after) ∧
        finished.map Prod.fst <+: request.commands ∧
        host.launchesOf request world =
          finished.map (fun (command, ended) => (launch.ofCommand command, .ended ended)) ∧
        report.runs = finished.map (fun (command, ended) => ended.record command.text) ∧
        report.outcome.Tells request.commands finished (host.killRequested after) ∧
        ∀ entry ∈ finished, (entry.2.record entry.1.text).exitCode = none ↔
          entry.2.ending = .expired ∨ entry.2.ending = .killed ∨ entry.2.ending = .exited none := by
  -- The plain run and the remembered one are the same run, so the cases are told once and both read
  -- off them.
  rcases host.pipeline_cases request world [] with
    ⟨stuck, attempt, after, unreported, plain, noted⟩ | ⟨launch, begun, begins, plain, noted⟩
  · refine .inl ⟨stuck, ?_, by rw [launchesOf, noted]⟩
    rw [plain]
    exact unreported
  · rw [launchesOf, noted] at served
    obtain ⟨outcome, finished, after, ran, course⟩ :=
      host.runCommands_course launch request.commands begun [] served
    have same := host.runCommands_recorded launch request.commands begun []
    rw [ran] at same
    refine .inr ⟨launch, begun, begins, ⟨outcome, _⟩, after, finished, ?_, course.launched, ?_, rfl,
      course.tells, fun entry _ => Ended.record_exitCode_eq_none_iff⟩
    · rw [plain, ← same]
      rfl
    · rw [launchesOf, noted, ran]
      rfl

/-- A host that plays back how commands end. Its kill switch is up when nothing is left. -/
def playback : Host (List Ended) where
  now _ := .zero
  killRequested left := left.isEmpty
  makeDirectories _ left := .ok left
  launch
    | _, [] => (.ended { ending := .killed, stdout := {}, stderr := {} }, [])
    | _, ended :: left => (.ended ended, left)

/-- Three commands, of which the first may fail. -/
def cleanBuild : Request where
  commands := [⟨"rm old", false⟩, ⟨"make", true⟩, ⟨"make check", true⟩]
  shell := ["/bin/sh", "-c"]
  directory := ⟨"/build"⟩
  env := []
  timeout := some (.ofSeconds 5)

/-- A signal ends the first command and the second one succeeds. -/
def cutShort : List Ended :=
  [{ ending := .exited none, stdout := {}, stderr := {} },
    { ending := .exited (some 0), stdout := {}, stderr := {} }]

/-- The first command may fail, and when the third one is due the kill switch is up. -/
theorem cutShort_tells :
    (∀ entry ∈ playback.launchesOf cleanBuild cutShort, ∃ ended, entry.2 = .ended ended) ∧
    ∃ report finished, playback.pipeline cleanBuild cutShort = (.reported report, []) ∧
      report.outcome = .interrupted ∧ report.runs.map (·.exitCode) = [none, some 0] ∧
      report.outcome.Tells cleanBuild.commands finished true := by
  have served : ∀ entry ∈ playback.launchesOf cleanBuild cutShort,
      ∃ ended, entry.2 = .ended ended := by
    intro entry member
    change entry ∈ [(_, Launched.ended _), (_, Launched.ended _)] at member
    simp only [List.mem_cons, List.not_mem_nil, or_false] at member
    rcases member with rfl | rfl <;> exact ⟨_, rfl⟩
  rcases playback.pipeline_tells cleanBuild cutShort served with
    ⟨-, -, nothing⟩ | ⟨launch, begun, -, report, after, finished, ran, -, -, -, tells, -⟩
  · cases nothing
  · have played : playback.pipeline cleanBuild cutShort =
        (.reported ⟨.interrupted, [_, _]⟩, []) := rfl
    cases played.symm.trans ran
    exact ⟨served, _, finished, ran, rfl, rfl, tells⟩

end Host

end SuiteRunner.Run
