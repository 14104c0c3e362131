import SuiteRunner.Run.Duration

/-!
# Results

What a test came to: a kind, perhaps a reason, and a record of each command that was
run. A run as a whole is summed up by how often each kind occurred; it succeeds unless
some test failed, was unresolved or timed out.
-/

namespace SuiteRunner.Run

inductive ResultKind where
  | pass
  | fail
  | xfail
  | xpass
  | unsupported
  | unresolved
  | timeout
  | skipped
  deriving DecidableEq, Repr

namespace ResultKind

def all : List ResultKind :=
  [pass, fail, xfail, xpass, unsupported, unresolved, timeout, skipped]

def text : ResultKind → String
  | pass => "PASS"
  | fail => "FAIL"
  | xfail => "XFAIL"
  | xpass => "XPASS"
  | unsupported => "UNSUPPORTED"
  | unresolved => "UNRESOLVED"
  | timeout => "TIMEOUT"
  | skipped => "SKIPPED"

/-- The kinds that make a whole run unsuccessful. -/
def isFailure : ResultKind → Bool
  | fail | unresolved | timeout => true
  | _ => false

end ResultKind

/-- What one command printed, and the code it ended with, if it ended by itself. -/
structure CommandRecord where
  command : String
  exitCode : Option Int
  stdout : String
  stderr : String
  deriving DecidableEq, Repr

structure TestResult where
  kind : ResultKind
  elapsed : Duration := .zero
  reason : Option String := none
  runs : List CommandRecord := []
  deriving DecidableEq, Repr

/-! ### Transcripts -/

/-- A text as whole lines. -/
def terminated (text : String) : String :=
  if text.isEmpty || text.endsWith "\n" then text else text ++ "\n"

def CommandRecord.transcript (run : CommandRecord) : String :=
  let ending := match run.exitCode with
    | some code => "# exit " ++ toString code ++ "\n"
    | none => "# killed\n"
  "$ " ++ run.command ++ "\n" ++ terminated run.stdout ++ terminated run.stderr ++ ending

namespace TestResult

def ofReason (kind : ResultKind) (reason : String) : TestResult :=
  { kind, reason := some reason }

def exitCodes (result : TestResult) : List (Option Int) := result.runs.map (·.exitCode)

/-- The transcripts of all commands. -/
def output (result : TestResult) : String :=
  String.join (result.runs.map CommandRecord.transcript)

end TestResult

/-! ### The result of a test -/

/-- A place for the result of a test. -/
abbrev Slot : Type := Option TestResult

namespace Slot

/-- Store a result unless there is one already. -/
def store (slot : Slot) (result : TestResult) : Slot :=
  match slot with
  | some earlier => some earlier
  | none => some result

@[simp] theorem store_empty (result : TestResult) : store none result = some result := rfl

@[simp] theorem store_filled (earlier result : TestResult) :
    store (some earlier) result = some earlier := rfl

end Slot

/-! ### Summing up -/

structure Summary where
  total : Nat
  /-- How often each kind occurred, for those that did. -/
  counts : List (ResultKind × Nat)
  success : Bool
  hasXpass : Bool
  duration : Duration
  deriving DecidableEq, Repr

namespace Summary

/-- Sum up the kinds of all results, whatever their order. -/
def ofKinds (kinds : List ResultKind) (duration : Duration) : Summary :=
  { total := kinds.length
    counts := (ResultKind.all.map fun kind => (kind, kinds.count kind)).filter (0 < ·.2)
    success := !kinds.any ResultKind.isFailure
    hasXpass := kinds.contains .xpass
    duration }

def count (summary : Summary) (kind : ResultKind) : Nat := (summary.counts.lookup kind).getD 0

/-- The exit code of a run: zero only if it succeeded and nobody interrupted it. -/
def exitCode (summary : Summary) (interrupted : Bool) : Nat :=
  if summary.success && !interrupted then 0 else 1

end Summary

end SuiteRunner.Run
