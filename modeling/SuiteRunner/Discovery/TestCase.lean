import SuiteRunner.Config.Effective
import SuiteRunner.Directive.Lexer

/-!
# Test cases

A test is a file, the configuration in effect for it, and its directives, or what kept
them from being read. Its name is its path below the source root.
-/

namespace SuiteRunner.Discovery

open Config Directive

/-- Why the directives of a test cannot be used. -/
inductive Problem where
  | unreadable (cause : Files.Failure)
  | malformed (errors : List Directive.Error)
  deriving DecidableEq, Repr

def Problem.message : Problem → String
  | unreadable cause => "cannot read test file: " ++ cause.message
  | malformed errors =>
    "malformed directives: " ++ "; ".intercalate (errors.map Directive.Error.message)

structure TestCase where
  path : Path
  /-- The path below the source root. -/
  relative : Path
  config : EffectiveConfig
  directives : Except Problem TestDirectives

/-- The name under which a test is reported and filtered. -/
def displayName (relative : Path) : String :=
  "/".intercalate (relative.components.map (Text.shown ·.text))

namespace TestCase

def name (test : TestCase) : String := displayName test.relative

/-- A test whose file has this text. -/
def ofText (path relative : Path) (config : EffectiveConfig) (text : String) : TestCase :=
  { path, relative, config, directives := (TestDirectives.parse text).mapError .malformed }

end TestCase

end SuiteRunner.Discovery
