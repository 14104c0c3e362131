import SuiteRunner.Discovery.TestCase
import SuiteRunner.Run.Pipeline
import SuiteRunner.Substitution.Engine

/-!
# Preparation

Before anything of a test is run, everything is made ready: the tools and libraries that
its run-lines mention are looked up, and every run-line is substituted. What cannot be
made ready leaves a reason and no request.
-/

namespace SuiteRunner.Run

open Config Directive Discovery Substitution

/-! ### Tools and libraries -/

/-- Whether some run-line holds the placeholder of a tool or library. -/
def mentions (lines : List RunLine) (name : String) : Bool :=
  lines.any fun line => Text.occursIn (placeholder name).toList line.command.toList

/-- The placeholder rules of the names, each leading to the file found for it. -/
def placeholderRules (find : String → Except Tool.NotFound Path) (names : List String) :
    Except Tool.NotFound (List Rule) :=
  names.mapM fun name => (find name).map fun path => ⟨placeholder name, path.shown⟩

/-- The rules of the tools and libraries of a configuration that `wanted` accepts, tools
first. -/
def resolvedRules (tree : Files.FileTree) (config : EffectiveConfig) (wanted : String → Bool) :
    Except Tool.NotFound (List Rule) := do
  let tools ← placeholderRules (config.places.tool tree) (config.tools.filter wanted)
  let libraries ← placeholderRules (config.places.library tree) (config.libraries.filter wanted)
  return tools ++ libraries

/-! ### Commands -/

/-- Why a test that should run cannot. -/
inductive Obstacle where
  | missing (cause : Tool.NotFound)
  | template (line : Nat) (cause : Substitution.Error)
  deriving DecidableEq, Repr

def Obstacle.message : Obstacle → String
  | missing cause => cause.message
  | template line cause => "line " ++ toString line ++ ": " ++ cause.message

/-- Substitute one run-line. -/
def commandOf (rules : List Rule) (line : RunLine) : Except Obstacle Command :=
  match substitute rules line.command with
  | .ok text => .ok ⟨text, line.propagates⟩
  | .error cause => .error (.template line.line cause)

def commandsOf (rules : List Rule) (lines : List RunLine) : Except Obstacle (List Command) :=
  lines.mapM (commandOf rules)

/-! ### Requests -/

/-- The timeout of a test: the one given for the whole run counts before that of the
configuration, and zero means none. -/
def effectiveTimeout (override configured : Option UInt64) : Option Duration :=
  ((override.or configured).filter (0 < ·)).map fun seconds => .ofSeconds seconds.toNat

/-- The request that runs a test. -/
def prepare (tree : Files.FileTree) (override : Option UInt64) (test : TestCase)
    (lines : List RunLine) : Except Obstacle Request := do
  let config := test.config
  let paths := TestPaths.ofTest test.path test.relative config.execRoot
  let resolved ← (resolvedRules tree config (mentions lines)).mapError .missing
  let commands ← commandsOf (config.rulesFor resolved paths) lines
  return { commands, shell := config.shell, directory := paths.tempDir, env := config.env.entries,
           timeout := effectiveTimeout override config.timeoutSecs }

end SuiteRunner.Run
