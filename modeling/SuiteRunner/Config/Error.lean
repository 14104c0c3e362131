import SuiteRunner.Path.Basic
import SuiteRunner.Text.Quoted
import SuiteRunner.Tool.Lookup

/-!
# What can be wrong with a configuration
-/

namespace SuiteRunner.Config

/-- Why a text is not a layer. -/
inductive LayerFault where
  /-- The text is not a TOML document at all. -/
  | notToml
  | invalidType (found expected : String)
  | invalidValue (found expected : String)
  | invalidLength (length : Nat) (expected : String)
  | unknownField (name : String) (known : List String)
  | missingField (name : String)
  | noVariant (type : String)
  deriving DecidableEq, Repr

def inBackticks (text : String) : String := "`" ++ text ++ "`"

def LayerFault.message : LayerFault → String
  | notToml => "the text is not a TOML document"
  | invalidType found expected => "invalid type: " ++ found ++ ", expected " ++ expected
  | invalidValue found expected => "invalid value: " ++ found ++ ", expected " ++ expected
  | invalidLength length expected =>
    "invalid length " ++ toString length ++ ", expected " ++ expected
  | unknownField name known =>
    "unknown field " ++ inBackticks name ++ ", expected one of " ++
      ", ".intercalate (known.map inBackticks)
  | missingField name => "missing field " ++ inBackticks name
  | noVariant type => "data did not match any variant of untagged enum " ++ type

/-- The name of the file that a suite's configuration starts from. -/
def layerFile : String := "litmus.toml"

/-- The name of the file with which a directory changes the configuration below it. -/
def localLayerFile : String := "litmus.local.toml"

inductive Error where
  | unreadable (path : Path) (cause : Files.Failure)
  | malformed (path : Path) (cause : LayerFault)
  | unknownLayer (scope : Path)
  | cycle (scope : Path)
  | missingParent (child parent : Path)
  | noEntryLayer (start : Path)
  | badFilter
  | requiredTool (layer : Path) (cause : Tool.NotFound)
  /-- Nothing is answered at all: loading comes back to this layer for ever. -/
  | endless (scope : Path)
  deriving DecidableEq, Repr

def Error.message : Error → String
  | unreadable path cause => "cannot read config layer " ++ path.shown ++ ": " ++ cause.message
  | malformed path cause => "cannot parse config layer " ++ path.shown ++ ": " ++ cause.message
  | unknownLayer scope => "config layer " ++ scope.shown ++ " was never loaded"
  | cycle scope => "cycle in config inheritance: " ++ scope.shown ++ " is its own ancestor"
  | missingParent child parent =>
    "config layer " ++ child.shown ++ " names parent " ++ parent.shown ++
      ", which cannot be found"
  | noEntryLayer start =>
    "no " ++ layerFile ++ " found in " ++ start.shown ++ " or any parent directory"
  | badFilter => "invalid --filter pattern"
  | requiredTool layer _ =>
    "tool required for discovery is missing (layer " ++ layer.shown ++ ")"
  | endless scope => "loading config layer " ++ scope.shown ++ " never ends"

end SuiteRunner.Config
