import SuiteRunner.Proofs.Json.RoundTrip
import SuiteRunner.Run.Report

/-!
# Reading the machine report

The machine report is read line by line. Whatever names, commands, outputs and reasons
occur in it, each line is about one event, and what it says about a test or about the run
is recovered from it in full.
-/

namespace SuiteRunner.Run

open Json (Value)

/-! ### Lines -/

/-- What one line says about a test. -/
structure TestLine where
  path : String
  kind : ResultKind
  elapsedMillis : Nat
  exitCodes : List (Option Int)
  output : String
  reason : Option String
  deriving DecidableEq, Repr

/-- What the last line says about the run. -/
structure SummaryLine where
  version : String
  total : Nat
  counts : List (ResultKind × Nat)
  success : Bool
  hasXpass : Bool
  durationMillis : Nat
  deriving DecidableEq, Repr

def TestLine.of (name : String) (result : TestResult) : TestLine :=
  { path := name
    kind := result.kind
    elapsedMillis := result.elapsed.millis
    exitCodes := result.exitCodes
    output := result.output
    reason := result.reason }

def SummaryLine.of (summary : Summary) : SummaryLine :=
  { version := Run.version
    total := summary.total
    counts := summary.counts
    success := summary.success
    hasXpass := summary.hasXpass
    durationMillis := summary.duration.millis64 }

/-! ### Reading a line -/

/-- The kind of this name, if there is one. -/
def ResultKind.ofText? (text : String) : Option ResultKind :=
  ResultKind.all.find? (·.text == text)

def TestLine.ofValue? (value : Value) : Option TestLine := do
  let path ← (← value.field? "path").string?
  let kind ← ResultKind.ofText? (← (← value.field? "result").string?)
  let elapsedMillis ← (← value.field? "elapsed_ms").natural?
  let exitCodes ← (← value.field? "exit_codes").list? (Value.nullable? Value.integer?)
  let output ← (← value.field? "output").string?
  let reason ← (← value.field? "reason").nullable? Value.string?
  return { path, kind, elapsedMillis, exitCodes, output, reason }

/-- How often a kind occurred, as it is written in a field of the counts. -/
def countOf? (field : String × Value) : Option (ResultKind × Nat) := do
  let kind ← ResultKind.ofText? field.1
  let count ← field.2.natural?
  return (kind, count)

def SummaryLine.ofValue? (value : Value) : Option SummaryLine := do
  let version ← (← value.field? "version").string?
  let summary ← value.field? "summary"
  let total ← (← summary.field? "total").natural?
  let counts ← (← (← summary.field? "counts").fields?).mapM countOf?
  let success ← (← summary.field? "success").boolean?
  let hasXpass ← (← summary.field? "has_xpass").boolean?
  let durationMillis ← (← summary.field? "duration_ms").natural?
  return { version, total, counts, success, hasXpass, durationMillis }

/-- Read a line about a test as JSON. -/
def TestLine.read? (line : String) : Option TestLine := Json.read? line >>= TestLine.ofValue?

/-- Read a line about the run as JSON. -/
def SummaryLine.read? (line : String) : Option SummaryLine :=
  Json.read? line >>= SummaryLine.ofValue?

/-! ### What was written is recovered -/

theorem ResultKind.ofText?_text (kind : ResultKind) : ofText? kind.text = some kind := by
  cases kind <;> decide

/-- Reading every part of a list back gives the list back. -/
theorem mapM_map_eq_some {α β : Type} {write : α → β} {read : β → Option α}
    (recovers : ∀ a, read (write a) = some a) (items : List α) :
    (items.map write).mapM read = some items := by
  induction items with
  | nil => rfl
  | cons item items ih =>
    rw [List.map_cons, List.mapM_cons, recovers, ih]
    rfl

theorem nullable?_ofOption {α : Type} {write : α → Value} {read : Value → Option α}
    (recovers : ∀ a, read (write a) = some a) (notNull : ∀ a, write a ≠ .null) (item : Option α) :
    (Value.ofOption write item).nullable? read = some item := by
  cases item with
  | none => rfl
  | some a =>
    change (write a).nullable? read = _
    unfold Value.nullable?
    split
    next null => exact absurd null (notNull a)
    next => rw [recovers]; rfl

theorem TestLine.ofValue?_record (name : String) (result : TestResult) :
    TestLine.ofValue? (result.record name) = some (TestLine.of name result) := by
  have integer : ∀ n, (Value.number n).integer? = some n := fun _ => rfl
  have string : ∀ text, (Value.string text).string? = some text := fun _ => rfl
  have codes : (result.exitCodes.map (Value.ofOption .number)).mapM
      (Value.nullable? Value.integer?) = some result.exitCodes :=
    mapM_map_eq_some (nullable?_ofOption integer (by simp)) _
  have reason : (Value.ofOption .string result.reason).nullable? Value.string? =
      some result.reason := nullable?_ofOption string (by simp) _
  simp [ofValue?, TestResult.record, Value.field?, List.lookup_cons, Value.string?,
    Value.natural?, Value.ofNat, Value.list?, ResultKind.ofText?_text, codes, reason,
    TestLine.of]

theorem countOf?_text (count : ResultKind × Nat) :
    countOf? (count.1.text, .ofNat count.2) = some count := by
  simp [countOf?, ResultKind.ofText?_text, Value.ofNat, Value.natural?]

theorem SummaryLine.ofValue?_record (summary : Summary) :
    SummaryLine.ofValue? summary.record = some (SummaryLine.of summary) := by
  have counts : (summary.counts.map fun count => (count.1.text, Value.ofNat count.2)).mapM
      countOf? = some summary.counts := mapM_map_eq_some countOf?_text _
  simp [ofValue?, Summary.record, Value.field?, List.lookup_cons, Value.string?, Value.boolean?,
    Value.natural?, Value.ofNat, Value.fields?] at counts ⊢
  simp [counts, SummaryLine.of]

theorem TestLine.read?_compact (name : String) (result : TestResult) :
    TestLine.read? (Json.compact (result.record name)) = some (TestLine.of name result) := by
  rw [read?, Json.read?_compact]
  exact ofValue?_record name result

theorem SummaryLine.read?_compact (summary : Summary) :
    SummaryLine.read? (Json.compact summary.record) = some (SummaryLine.of summary) := by
  rw [read?, Json.read?_compact]
  exact ofValue?_record summary

/-! ### The whole report -/

theorem hearAll_machine (events : List Event) :
    Reporter.machine.hearAll events = events.map machineText := by
  induction events with
  | nil => rfl
  | cons event events ih => rw [Reporter.hearAll, List.map_cons, ← ih]; rfl

/-- The report on any tests and their run has one line for each of them, in order and without
a line break inside; read as JSON, each gives back what was reported. -/
theorem machine_report_lines (tests : List (String × TestResult)) (summary : Summary) :
    ∃ testLines lastLine,
      String.join (Reporter.machine.hearAll
          (tests.map (fun (name, result) => .tested name result) ++ [.finished summary])) =
        String.join ((testLines ++ [lastLine]).map (· ++ "\n")) ∧
      (∀ line ∈ testLines ++ [lastLine], '\n' ∉ line.toList) ∧
      testLines.map TestLine.read? =
        tests.map (fun (name, result) => some (TestLine.of name result)) ∧
      SummaryLine.read? lastLine = some (SummaryLine.of summary) := by
  refine ⟨tests.map fun (name, result) => Json.compact (result.record name),
    Json.compact summary.record, ?_, ?_, ?_, SummaryLine.read?_compact summary⟩
  · rw [hearAll_machine, List.map_append, List.map_append, List.map_map, List.map_map]
    rfl
  · intro line member
    rcases List.mem_append.mp member with about | last
    · obtain ⟨test, -, rfl⟩ := List.mem_map.mp about
      exact Json.newline_not_mem_compact _
    · rw [List.mem_singleton.mp last]
      exact Json.newline_not_mem_compact _
  · rw [List.map_map]
    exact List.map_congr_left fun test member => TestLine.read?_compact test.1 test.2

end SuiteRunner.Run
