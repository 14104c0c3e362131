import SuiteRunner.Ordered
import SuiteRunner.Substitution.Rule

/-!
# Layers

A layer is what one file says about a suite. Whatever it leaves unset is decided by the
layers it inherits from. A layer is identified by its scope, the path of its file, and
its relative paths start in the directory of that file.
-/

namespace SuiteRunner.Config

open Substitution (Rule)

/-- The value of a variable. -/
inductive Setting where
  | flag (value : Bool)
  | text (value : String)
  | list (items : List String)
  deriving DecidableEq, Repr

/-- What stands for the variable in a command; a flag has no text. -/
def Setting.replacement? : Setting → Option String
  | flag _ => none
  | text value => some value
  | list items => some (Substitution.pathListSeparator.intercalate items)

/-- The platform names that one layer sets. -/
structure NamingPart where
  exeSuffix : Option String := none
  shlibPrefix : Option String := none
  shlibExt : Option String := none
  deriving DecidableEq, Repr

structure Layer where
  scope : Path
  parent : Option Path := none
  name : Option String := none
  sourceRoot : Option Path := none
  execRoot : Option Path := none
  target : Option String := none
  unsupported : Option Bool := none
  shell : Option (List String) := none
  /-- Seconds for one test; zero stands for no limit. -/
  timeout : Option UInt64 := none
  naming : NamingPart := {}
  vars : Ordered.Table Setting := ∅
  env : Ordered.Table String := ∅
  substitutions : List Rule := []
  suffixes : List String := []
  excludes : List String := []
  features : List String := []
  tools : List String := []
  requiredTools : List String := []
  libraries : List String := []
  toolDirs : List Path := []
  libraryDirs : List Path := []
  deriving DecidableEq

/-- The directory of a layer file. -/
def directoryOf (scope : Path) : Path := scope.parent?.getD ⟨"."⟩

def Layer.directory (layer : Layer) : Path := directoryOf layer.scope

/-- A path written in a layer file, taken from the directory of that file. -/
def anchor (directory path : Path) : Path :=
  if path.isAbsolute then path else directory.join path

end SuiteRunner.Config
