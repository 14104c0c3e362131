import SuiteRunner.Feature.Expr
import SuiteRunner.Feature.Token

/-!
# Directives of a test

A test file says in its directives what it needs, where it is expected to fail, where
it makes no sense, and which commands it consists of. A malformed directive is kept as
the cause and the line it stands on.
-/

namespace SuiteRunner.Directive

open Feature

/-- One command of a test, before substitution. A command that does not propagate may
fail without ending the test. -/
structure RunLine where
  command : String
  line : Nat
  propagates : Bool
  deriving DecidableEq, Repr

inductive Kind where
  | requires (exprs : List Expr)
  | xfail (exprs : List Expr)
  | unsupported (exprs : List Expr)
  | run (line : RunLine)
  deriving DecidableEq, Repr

/-- What a directive says, and the line on which it begins. -/
structure Item where
  kind : Kind
  line : Nat
  deriving DecidableEq, Repr

inductive Cause where
  | emptyEntry (directive : String)
  | emptyRun
  | unterminatedContinuation
  | badExpression (directive : String) (cause : SyntaxError)
  deriving DecidableEq, Repr

structure Error where
  line : Nat
  cause : Cause
  deriving DecidableEq, Repr

def Cause.message : Cause → String
  | emptyEntry directive => directive ++ " has an empty entry"
  | emptyRun => "RUN: line has no command"
  | unterminatedContinuation => "RUN: line ends with '\\' but no RUN: line follows"
  | badExpression directive cause =>
    "invalid expression in " ++ directive ++ ": " ++ cause.message

def Error.message (e : Error) : String :=
  "line " ++ toString e.line ++ ": " ++ e.cause.message

/-! ### Grouped by kind -/

/-- All directives of one test, each kind in source order. -/
structure TestDirectives where
  requires : List Expr := []
  xfail : List Expr := []
  unsupported : List Expr := []
  runLines : List RunLine := []
  deriving DecidableEq, Repr

namespace TestDirectives

def add (grouped : TestDirectives) (directive : Item) : TestDirectives :=
  match directive.kind with
  | .requires exprs => { grouped with requires := grouped.requires ++ exprs }
  | .xfail exprs => { grouped with xfail := grouped.xfail ++ exprs }
  | .unsupported exprs => { grouped with unsupported := grouped.unsupported ++ exprs }
  | .run line => { grouped with runLines := grouped.runLines ++ [line] }

def ofDirectives (directives : List Item) : TestDirectives :=
  directives.foldl add {}

/-- The required expressions that do not hold, in written form. -/
def missing (holds : String → Bool) (directives : TestDirectives) : List String :=
  (directives.requires.filter fun e => !e.evaluate holds).map Expr.text

/-- The first expectation of failure that holds. -/
def xfailMatch? (holds : String → Bool) (directives : TestDirectives) : Option Expr :=
  directives.xfail.find? (·.evaluate holds)

/-- The first exclusion that holds. -/
def unsupportedMatch? (holds : String → Bool) (directives : TestDirectives) : Option Expr :=
  directives.unsupported.find? (·.evaluate holds)

end TestDirectives

end SuiteRunner.Directive
