import SuiteRunner.Json.Basic
import SuiteRunner.Run.Result

/-!
# Reports

A reporter hears of the tests collected, of each result, and of the end of the run, and
answers each with the text it prints. The console report shows what needs attention,
or every result if it is verbose; it counts results even if it does not show them. The
machine report is one JSON object on a line for each result and one for the run.
-/

namespace SuiteRunner.Run

inductive Event where
  | collected (count : Nat)
  | tested (name : String) (result : TestResult)
  | finished (summary : Summary)
  deriving DecidableEq, Repr

def version : String := "0.1.0"

/-! ### Console -/

structure Console where
  verbose : Bool := false
  color : Bool := false
  completed : Nat := 0
  total : Nat := 0
  deriving DecidableEq, Repr

/-- The number of the terminal color in which a kind is shown. -/
def ResultKind.color : ResultKind → String
  | pass => "32"
  | fail | xpass | unresolved | timeout => "31"
  | xfail | unsupported | skipped => "33"

/-- The kinds that are shown even if the report is not verbose. -/
def ResultKind.needsAttention (kind : ResultKind) : Bool := kind.isFailure || kind == .xpass

def ResultKind.label : ResultKind → String
  | pass => "passed"
  | fail => "failed"
  | xfail => "expectedly failed"
  | xpass => "unexpectedly passed"
  | unsupported => "unsupported"
  | unresolved => "unresolved"
  | timeout => "timed out"
  | skipped => "skipped"

namespace Console

def paint (console : Console) (kind : ResultKind) (text : String) : String :=
  if console.color then "\x1b[" ++ kind.color ++ "m" ++ text ++ "\x1b[0m" else text

def statusLine (console : Console) (name : String) (result : TestResult) : String :=
  console.paint result.kind result.kind.text ++ ": " ++ name ++ " (" ++
    toString console.completed ++ " of " ++ toString console.total ++ ")" ++
    (if console.verbose then " [" ++ toString result.elapsed.millis ++ "ms]" else "") ++ "\n"

def reasonLine (result : TestResult) : String :=
  match result.reason with
  | some reason => "  " ++ reason ++ "\n"
  | none => ""

def transcript (name : String) (result : TestResult) : String :=
  if result.kind.needsAttention && !result.runs.isEmpty then
    "******************** TEST '" ++ name ++ "' OUTPUT ********************\n" ++
      result.output ++ "********************\n"
  else ""

/-- What is shown of a result that has been counted already. -/
def testText (console : Console) (name : String) (result : TestResult) : String :=
  if result.kind.needsAttention || console.verbose then
    console.statusLine name result ++ reasonLine result ++ transcript name result
  else ""

def summaryText (console : Console) (summary : Summary) : String :=
  let parts := (ResultKind.all.filter (0 < summary.count ·)).map fun kind =>
    console.paint kind (toString (summary.count kind) ++ " " ++ kind.label)
  let body := if parts.isEmpty then "no tests ran" else ", ".intercalate parts
  "\n====== " ++ body ++ " in " ++ summary.duration.secondsText ++ "s ======\n"

def hear (console : Console) : Event → Console × String
  | .collected count =>
    ({ console with total := count }, if count = 0 then "No tests collected\n" else "")
  | .tested name result =>
    let console := { console with completed := console.completed + 1 }
    (console, console.testText name result)
  | .finished summary => (console, console.summaryText summary)

end Console

/-! ### Machine -/

open Json (Value)

def TestResult.record (name : String) (result : TestResult) : Value :=
  .object
    [("path", .string name),
     ("result", .string result.kind.text),
     ("elapsed_ms", .ofNat result.elapsed.millis),
     ("exit_codes", .array (result.exitCodes.map (.ofOption .number))),
     ("output", .string result.output),
     ("reason", .ofOption .string result.reason)]

def Summary.record (summary : Summary) : Value :=
  .object
    [("version", .string version),
     ("summary", .object
       [("total", .ofNat summary.total),
        ("counts", .object (summary.counts.map fun (kind, count) => (kind.text, .ofNat count))),
        ("success", .boolean summary.success),
        ("has_xpass", .boolean summary.hasXpass),
        ("duration_ms", .ofNat summary.duration.millis64)])]

def machineText : Event → String
  | .collected _ => ""
  | .tested name result => Json.compact (result.record name) ++ "\n"
  | .finished summary => Json.compact summary.record ++ "\n"

/-! ### Either -/

inductive Reporter where
  | console (state : Console)
  | machine
  deriving DecidableEq, Repr

namespace Reporter

def hear (reporter : Reporter) (event : Event) : Reporter × String :=
  match reporter with
  | console state =>
    let (state, text) := state.hear event
    (.console state, text)
  | machine => (.machine, machineText event)

/-- The texts with which a reporter answers a sequence of events. -/
def hearAll (reporter : Reporter) : List Event → List String
  | [] => []
  | event :: events =>
    let (reporter, text) := reporter.hear event
    text :: reporter.hearAll events

end Reporter

end SuiteRunner.Run
