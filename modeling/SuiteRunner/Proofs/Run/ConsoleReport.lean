import SuiteRunner.Proofs.Text.Coloring
import SuiteRunner.Proofs.Text.Numerals
import SuiteRunner.Run.Report

/-!
# What the console report shows

The console report numbers the results of a run, also those that it does not show. It shows a
result if it is verbose or the result needs attention, and with a transcript if something was run
for a result that needs attention. Colors are only around the names of kinds and the counts, so a
report in color is the report without colors and what tells the terminal about them.
-/

namespace SuiteRunner.Run

open Text

/-! ### Single results -/

/-- The failures and the unexpected pass. -/
def alarming : List ResultKind := [.fail, .unresolved, .timeout, .xpass]

theorem ResultKind.needsAttention_iff (kind : ResultKind) :
    kind.needsAttention = true ↔ kind ∈ alarming := by
  cases kind <;> decide

/-- How the line on a result begins that is one of so many: its kind, its name and its number. -/
def lineStart (color : Bool) (place total : Nat) (name : String) (kind : ResultKind) : String :=
  ({ color } : Console).paint kind kind.text ++ ": " ++ name ++ " (" ++ toString place ++ " of " ++
    toString total ++ ")"

/-- How it ends, with the time it took if the report is verbose. -/
def lineEnd (verbose : Bool) (result : TestResult) : String :=
  (if verbose then " [" ++ toString result.elapsed.millis ++ "ms]" else "") ++ "\n"

def transcriptOf (name : String) (result : TestResult) : String :=
  "******************** TEST '" ++ name ++ "' OUTPUT ********************\n" ++
    String.join (result.runs.map CommandRecord.transcript) ++ "********************\n"

/-- What is shown of a result that is one of so many. -/
inductive Shows (verbose color : Bool) (place total : Nat) (name : String)
    (result : TestResult) : String → Prop where
  | nothing (terse : verbose = false) (calm : result.kind ∉ alarming) :
      Shows verbose color place total name result ""
  | line (wanted : verbose = true ∨ result.kind ∈ alarming)
      (bare : result.kind ∉ alarming ∨ result.runs = []) :
      Shows verbose color place total name result
        (lineStart color place total name result.kind ++ lineEnd verbose result ++
          Console.reasonLine result)
  | transcript (alarms : result.kind ∈ alarming) (ran : result.runs ≠ []) :
      Shows verbose color place total name result
        (lineStart color place total name result.kind ++ lineEnd verbose result ++
          Console.reasonLine result ++ transcriptOf name result)

variable {verbose color : Bool} {place total : Nat} {name text : String} {result : TestResult}

theorem Console.statusLine_eq (console : Console) (name : String) (result : TestResult) :
    console.statusLine name result =
      lineStart console.color console.completed console.total name result.kind ++
        lineEnd console.verbose result := by
  simp [Console.statusLine, lineStart, lineEnd, Console.paint, String.append_assoc]

theorem Console.testText_shows (console : Console) (name : String) (result : TestResult) :
    Shows console.verbose console.color console.completed console.total name result
      (console.testText name result) := by
  -- The two conditions of `testText`, whether there is a line and whether a transcript follows it,
  -- decide which constructor of `Shows` applies.
  rw [testText]
  split
  next wanted =>
    rw [Bool.or_eq_true, ResultKind.needsAttention_iff, or_comm] at wanted
    rw [statusLine_eq, Console.transcript]
    split
    next attention =>
      rw [Bool.and_eq_true, ResultKind.needsAttention_iff] at attention
      exact .transcript attention.1 (by simpa using attention.2)
    next bare =>
      rw [Bool.and_eq_true, ResultKind.needsAttention_iff, not_and_or] at bare
      rw [String.append_empty]
      exact .line wanted (bare.imp_right (by simp))
  next unwanted =>
    rw [Bool.or_eq_true, ResultKind.needsAttention_iff, not_or, Bool.not_eq_true] at unwanted
    exact .nothing unwanted.2 unwanted.1

/-- The line is there if and only if the report is verbose or the result needs attention. -/
theorem Shows.line_iff (shows : Shows verbose color place total name result text) :
    (∃ rest, text = lineStart color place total name result.kind ++ rest) ↔
      verbose = true ∨ result.kind ∈ alarming := by
  cases shows with
  | nothing terse calm =>
    refine iff_of_false ?_ (by simp [terse, calm])
    rintro ⟨rest, same⟩
    simp [lineStart] at same
  | line wanted bare => exact iff_of_true ⟨_, String.append_assoc ..⟩ wanted
  | transcript alarms ran =>
    exact iff_of_true ⟨_, by rw [String.append_assoc, String.append_assoc]⟩ (.inr alarms)

/-! ### The whole report -/

/-- The texts with which the report answers the beginning of a run, its results and its end. -/
def consoleReport (verbose color : Bool) (total : Nat) (tests : List (String × TestResult))
    (summary : Summary) : List String :=
  (Reporter.console { verbose, color }).hearAll
    (.collected total :: tests.map (fun (name, result) => .tested name result) ++
      [.finished summary])

/-- Results are counted one by one. -/
theorem hearAll_tests (console : Console) (tests : List (String × TestResult))
    (later : List Event) :
    (Reporter.console console).hearAll
        (tests.map (fun (name, result) => .tested name result) ++ later) =
      tests.mapIdx (fun place (name, result) =>
        { console with completed := console.completed + place + 1 }.testText name result) ++
      (Reporter.console
        { console with completed := console.completed + tests.length }).hearAll later := by
  induction tests generalizing console with
  | nil => rfl
  | cons test tests ih =>
    rw [List.map_cons, List.cons_append, Reporter.hearAll, List.mapIdx_cons, List.cons_append]
    refine congrArg₂ List.cons rfl ?_
    refine (ih { console with completed := console.completed + 1 }).trans ?_
    simp only [List.length_cons, Nat.add_assoc, Nat.add_comm 1]

theorem consoleReport_eq (verbose color : Bool) (total : Nat)
    (tests : List (String × TestResult)) (summary : Summary) :
    consoleReport verbose color total tests summary =
      (if total = 0 then "No tests collected\n" else "") ::
        tests.mapIdx (fun place (name, result) =>
          Console.testText ⟨verbose, color, place + 1, total⟩ name result) ++
        [Console.summaryText ⟨verbose, color, tests.length, total⟩ summary] := by
  rw [consoleReport, List.cons_append, Reporter.hearAll, List.cons_append]
  refine congrArg₂ List.cons rfl ?_
  refine (hearAll_tests _ tests _).trans ?_
  simp [Reporter.hearAll, Reporter.hear, Console.hear]

/-! ### Colors -/

/-- No text that comes from outside has an escape character. -/
structure Clean (name : String) (result : TestResult) : Prop where
  name : Colorless name
  reason : ∀ reason ∈ result.reason, Colorless reason
  command : ∀ run ∈ result.runs, Colorless run.command
  stdout : ∀ run ∈ result.runs, Colorless run.stdout
  stderr : ∀ run ∈ result.runs, Colorless run.stderr

theorem colorless_natural (n : Nat) : Colorless (toString n) := not_mem_toString_nat (by decide) n

theorem colorless_terminated {text : String} (clean : Colorless text) :
    Colorless (terminated text) := by
  rw [terminated]
  split
  next => exact clean
  next => exact clean.append (by decide)

theorem CommandRecord.colorless_transcript {run : CommandRecord} (command : Colorless run.command)
    (stdout : Colorless run.stdout) (stderr : Colorless run.stderr) : Colorless run.transcript := by
  -- The transcript is the command line, the two streams and the exit code, one behind the other;
  -- none of the texts between them has an escape.
  have begun : Colorless ("$ " ++ run.command ++ "\n") :=
    (Colorless.append (by decide) command).append (by decide)
  have printed := (begun.append (colorless_terminated stdout)).append
    (colorless_terminated stderr)
  rw [transcript]
  refine printed.append ?_
  cases run.exitCode with
  | none => decide
  | some code =>
    have number : Colorless (toString code) := not_mem_toString_int (by decide) (by decide) code
    exact (Colorless.append (by decide) number).append (by decide)

theorem Duration.colorless_secondsText (duration : Duration) : Colorless duration.secondsText := by
  rw [secondsText]
  split
  next seconds =>
    have digits (n : Nat) : Colorless (Decimal.Binary64.padded 2 n) :=
      Colorless.append (not_mem_pushn (by decide) (by decide) _) (colorless_natural n)
    exact ((colorless_natural _).append (by decide)).append (digits _)
  next => decide

theorem ResultKind.colorless_text (kind : ResultKind) : Colorless kind.text := by
  cases kind <;> decide

theorem ResultKind.colorless_label (kind : ResultKind) : Colorless kind.label := by
  cases kind <;> decide

theorem ResultKind.color_numeric (kind : ResultKind) :
    ∀ c ∈ kind.color.toList, c.isDigit = true := by
  rw [← List.all_eq_true]
  cases kind <;> decide

/-- What is painted fades to what is not. -/
theorem paint_fades (kind : ResultKind) (clean : Colorless text) :
    Fades (({ color := true } : Console).paint kind text)
      (({ color := false } : Console).paint kind text) :=
  (Fades.of_colorless clean).painted kind.color_numeric

theorem lineStart_fades (place total : Nat) (clean : Colorless name) (kind : ResultKind) :
    Fades (lineStart true place total name kind) (lineStart false place total name kind) := by
  have before : Colorless (": " ++ name ++ " (") :=
    (Colorless.append (by decide) clean).append (by decide)
  have behind : Colorless (toString place ++ " of " ++ toString total ++ ")") :=
    (((colorless_natural place).append (by decide)).append (colorless_natural total)).append
      (by decide)
  have whole := ((paint_fades kind kind.colorless_text).append (.of_colorless before)).append
    (.of_colorless behind)
  simpa only [lineStart, String.append_assoc] using whole

theorem colorless_lineEnd (verbose : Bool) (result : TestResult) :
    Colorless (lineEnd verbose result) := by
  refine Colorless.append ?_ (by decide)
  split
  next => exact (Colorless.append (by decide) (colorless_natural _)).append (by decide)
  next => decide

theorem Clean.reasonLine (clean : Clean name result) :
    Colorless (Console.reasonLine result) := by
  rw [Console.reasonLine]
  split
  next reason given =>
    exact (Colorless.append (by decide) (clean.reason reason given)).append (by decide)
  next => decide

theorem Clean.transcript (clean : Clean name result) :
    Colorless (Console.transcript name result) := by
  rw [Console.transcript]
  split
  next =>
    have output : Colorless result.output := by
      refine Colorless.join fun text member => ?_
      obtain ⟨run, ran, rfl⟩ := List.mem_map.mp member
      exact CommandRecord.colorless_transcript (clean.command run ran) (clean.stdout run ran)
        (clean.stderr run ran)
    have head : Colorless ("******************** TEST '" ++ name ++
        "' OUTPUT ********************\n") :=
      (Colorless.append (by decide) clean.name).append (by decide)
    exact (head.append output).append (by decide)
  next => decide

theorem testText_fades (verbose : Bool) (place total : Nat) (clean : Clean name result) :
    Fades (Console.testText ⟨verbose, true, place, total⟩ name result)
      (Console.testText ⟨verbose, false, place, total⟩ name result) := by
  rw [Console.testText, Console.testText, Console.statusLine_eq, Console.statusLine_eq]
  split
  next =>
    have rest := ((colorless_lineEnd verbose result).append clean.reasonLine).append
      clean.transcript
    have whole := (lineStart_fades place total clean.name result.kind).append
      (.of_colorless rest)
    simpa only [String.append_assoc] using whole
  next => exact .of_colorless (by decide)

theorem summaryText_fades (verbose : Bool) (place total : Nat) (summary : Summary) :
    Fades (Console.summaryText ⟨verbose, true, place, total⟩ summary)
      (Console.summaryText ⟨verbose, false, place, total⟩ summary) := by
  rw [Console.summaryText, Console.summaryText]
  generalize ResultKind.all.filter (0 < summary.count ·) = kinds
  -- The counts are painted one by one, in the same order.
  have parts : List.Forall₂ Fades
      (kinds.map fun kind => Console.paint ⟨verbose, true, place, total⟩ kind
        (toString (summary.count kind) ++ " " ++ kind.label))
      (kinds.map fun kind => Console.paint ⟨verbose, false, place, total⟩ kind
        (toString (summary.count kind) ++ " " ++ kind.label)) := by
    rw [List.forall₂_map_left_iff, List.forall₂_map_right_iff, List.forall₂_same]
    intro kind _
    exact paint_fades kind
      (((colorless_natural _).append (by decide)).append kind.colorless_label)
  have body := Fades.intercalate (by decide : Colorless ", ") parts
  have behind : Colorless (" in " ++ summary.duration.secondsText ++ "s ======\n") :=
    (Colorless.append (by decide) summary.duration.colorless_secondsText).append (by decide)
  simp only [List.isEmpty_map, String.append_assoc]
  refine (Fades.of_colorless (by decide)).append (Fades.append ?_ (.of_colorless (by
    simpa only [String.append_assoc] using behind)))
  split
  next => exact .of_colorless (by decide)
  next => simpa only [String.append_assoc] using body

/-- A report in color fades to the report without. -/
theorem consoleReport_fades (verbose : Bool) (total : Nat) {tests : List (String × TestResult)}
    (clean : ∀ test ∈ tests, Clean test.1 test.2) (summary : Summary) :
    Fades (String.join (consoleReport verbose true total tests summary))
      (String.join (consoleReport verbose false total tests summary)) := by
  rw [consoleReport_eq, consoleReport_eq]
  have first : Fades (if total = 0 then "No tests collected\n" else "")
      (if total = 0 then "No tests collected\n" else "") := by
    split <;> exact .of_colorless (by decide)
  -- The first line, the texts of the tests and the summary fade each for itself, so their join
  -- does.
  have last := List.Forall₂.cons (summaryText_fades verbose tests.length total summary) .nil
  refine Fades.join (.cons first (List.rel_append ?_ last))
  -- The texts of the tests are paired by their places, since a test's number is in its line.
  rw [List.forall₂_iff_get]
  refine ⟨by simp, fun place bound bound' => ?_⟩
  have there : place < tests.length := by simpa using bound
  have test := testText_fades verbose (place + 1) total (clean tests[place] (List.getElem_mem there))
  simpa using test

/-- In a report on any results, the text on the k-th result has a line that begins with its kind,
its name and that it is the k-th of all if and only if the report is verbose or the result is a
failure or an unexpected pass, and otherwise is empty. A transcript follows exactly for those of
the latter for which something was run. If no text from outside has an escape character, then
the report in color without its color sequences is the report without colors. -/
theorem console_report_faithful (verbose : Bool) (total : Nat)
    (tests : List (String × TestResult)) (summary : Summary) :
    (∀ color, ∃ first texts last,
      consoleReport verbose color total tests summary = first :: texts ++ [last] ∧
      texts.length = tests.length ∧
      ∀ place name result text, tests[place]? = some (name, result) →
        texts[place]? = some text →
        Shows verbose color (place + 1) total name result text ∧
        ((∃ rest, text = lineStart color (place + 1) total name result.kind ++ rest) ↔
          verbose = true ∨ result.kind ∈ alarming)) ∧
    ((∀ test ∈ tests, Clean test.1 test.2) →
      uncolored (String.join (consoleReport verbose true total tests summary)) =
        String.join (consoleReport verbose false total tests summary)) := by
  refine ⟨fun color => ?_, fun clean =>
    (consoleReport_fades verbose total clean summary).uncolored_eq⟩
  refine ⟨_, _, _, consoleReport_eq verbose color total tests summary, List.length_mapIdx, ?_⟩
  intro place name result text test shown
  rw [List.getElem?_mapIdx, test, Option.map_some] at shown
  cases shown
  have shows := Console.testText_shows ⟨verbose, color, place + 1, total⟩ name result
  exact ⟨shows, shows.line_iff⟩

/-- A test that passes in silence, and one that fails. -/
def brokenBuild : List (String × TestResult) :=
  [("ok.t", { kind := .pass }),
    ("bad.t", { kind := .fail, runs := [⟨"make", some 2, "", "no rule\n"⟩] })]

/-- The result that is not shown is counted too. -/
theorem brokenBuild_faithful :
    (∀ test ∈ brokenBuild, Clean test.1 test.2) ∧
    (∃ first last rest,
      consoleReport false false 2 brokenBuild (.ofKinds [.pass, .fail] .zero) =
        [first, "", "FAIL: bad.t (2 of 2)" ++ rest, last]) ∧
    uncolored (String.join
        (consoleReport false true 2 brokenBuild (.ofKinds [.pass, .fail] .zero))) =
      String.join (consoleReport false false 2 brokenBuild (.ofKinds [.pass, .fail] .zero)) := by
  have clean : ∀ test ∈ brokenBuild, Clean test.1 test.2 := by
    simp only [brokenBuild, List.forall_mem_cons]
    exact ⟨⟨by decide, by simp, by simp, by simp, by simp⟩,
      ⟨by decide, by simp, by simp; decide, by simp; decide, by simp; decide⟩, by simp⟩
  obtain ⟨shown, fades⟩ := console_report_faithful false 2 brokenBuild (.ofKinds [.pass, .fail] .zero)
  obtain ⟨first, texts, last, report, size, tells⟩ := shown false
  obtain ⟨calm, alarm, rfl⟩ := List.length_eq_two.mp size
  obtain ⟨silent, -⟩ := tells 0 "ok.t" _ calm rfl rfl
  obtain ⟨-, line⟩ := tells 1 "bad.t" _ alarm rfl rfl
  obtain ⟨rest, rfl⟩ := line.mpr (.inr (by decide))
  cases silent with
  | nothing => exact ⟨clean, ⟨first, last, rest, report⟩, fades clean⟩
  | line wanted => exact absurd wanted (by decide)
  | transcript alarms => exact absurd alarms (by decide)

end SuiteRunner.Run
