import SuiteRunner.Directive.Basic
import SuiteRunner.Directive.Marker
import SuiteRunner.Feature.Parser

/-!
# Reading the directives of a test file

The text is read line by line; only lines with a marker matter, and a line whose
marker is `END.` with nothing behind it ends the reading. A `RUN:` text that ends in a
backslash stays open until the next `RUN:` line, whose text is put directly behind it.
Reading goes on after a malformed directive, so that all of them are reported at once.
-/

namespace SuiteRunner.Directive

open Feature

/-- Command text whose continuation is still to come, and the line it began on. -/
structure OpenRun where
  text : List Char
  line : Nat
  deriving DecidableEq, Repr

/-- What has been read so far. -/
structure Progress where
  directives : List Item := []
  errors : List Error := []
  openRun : Option OpenRun := none
  deriving DecidableEq, Repr

namespace Progress

def addDirective (progress : Progress) (directive : Item) : Progress :=
  { progress with directives := progress.directives ++ [directive] }

def addError (progress : Progress) (e : Error) : Progress :=
  { progress with errors := progress.errors ++ [e] }

end Progress

/-! ### Commands -/

/-- The text without its last backslash, if it ends in one. -/
def continued? (text : List Char) : Option (List Char) :=
  match text.reverse with
  | '\\' :: rest => some rest.reverse
  | _ => none

/-- A complete command text: a leading dash says that failure does not propagate. -/
def RunLine.ofText? (text : List Char) (line : Nat) : Option RunLine :=
  let (command, propagates) :=
    match Text.trim text with
    | '-' :: rest => (Text.trimStart rest, false)
    | command => (command, true)
  if command.isEmpty then none else some ⟨String.ofList command, line, propagates⟩

def Progress.addRun (progress : Progress) (line : Nat) (rest : List Char) : Progress :=
  let opened := progress.openRun.getD ⟨[], line⟩
  let text := opened.text ++ Text.trim rest
  match continued? text with
  | some text => { progress with openRun := some ⟨text, opened.line⟩ }
  | none =>
    let closed := { progress with openRun := none }
    match RunLine.ofText? text opened.line with
    | some run => closed.addDirective ⟨.run run, opened.line⟩
    | none => closed.addError ⟨opened.line, .emptyRun⟩

/-! ### Lists of expressions -/

def entry (directive : String) (text : List Char) : Except Cause Expr :=
  let text := Text.trim text
  if text.isEmpty then .error (.emptyEntry directive)
  else (Expr.parse (String.ofList text)).mapError (.badExpression directive)

def entries (directive : String) (rest : List Char) : Except Cause (List Expr) :=
  (Text.split ',' rest).mapM (entry directive)

def Progress.addEntries (progress : Progress) (marker : Marker) (kind : List Expr → Kind)
    (line : Nat) (rest : List Char) : Progress :=
  match entries marker.name rest with
  | .ok exprs => progress.addDirective ⟨kind exprs, line⟩
  | .error cause => progress.addError ⟨line, cause⟩

/-! ### Whole texts -/

/-- Read the lines from number `line` on. -/
def readLines (line : Nat) (progress : Progress) : List (List Char) → Progress
  | [] => progress
  | text :: texts =>
    match findMarker text with
    | none => readLines (line + 1) progress texts
    | some (.stop, rest) =>
      if (Text.trim rest).isEmpty then progress else readLines (line + 1) progress texts
    | some (.run, rest) => readLines (line + 1) (progress.addRun line rest) texts
    | some (.requires, rest) =>
      readLines (line + 1) (progress.addEntries .requires .requires line rest) texts
    | some (.xfail, rest) =>
      readLines (line + 1) (progress.addEntries .xfail .xfail line rest) texts
    | some (.unsupported, rest) =>
      readLines (line + 1) (progress.addEntries .unsupported .unsupported line rest) texts

/-- A continuation that is still open when the reading ends is one more error. -/
def Progress.finish (progress : Progress) : Except (List Error) (List Item) :=
  let errors :=
    match progress.openRun with
    | some opened => progress.errors ++ [⟨opened.line, .unterminatedContinuation⟩]
    | none => progress.errors
  if errors.isEmpty then .ok progress.directives else .error errors

/-- All directives of a test file in the order in which they are complete, or all that is wrong
with them. A command on several lines is complete with the last of them, behind what stands in
between. -/
def read (source : String) : Except (List Error) (List Item) :=
  (readLines 1 {} (Text.lines source.toList)).finish

def TestDirectives.parse (source : String) : Except (List Error) TestDirectives :=
  (read source).map ofDirectives

end SuiteRunner.Directive
