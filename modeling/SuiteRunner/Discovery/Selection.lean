import SuiteRunner.Config.Error
import SuiteRunner.Files.Tree
import SuiteRunner.Pattern.Parser

/-!
# Selections

A selection restricts which tests of a suite are found: to those at or below some of the
given paths, if any are given, and to those whose names are accepted.
-/

namespace SuiteRunner.Discovery

structure Selection where
  /-- Identities of files and directories; none means the whole suite. -/
  paths : List Path := []
  acceptsName : String → Bool := fun _ => true

namespace Selection

/-- The selection of some paths, and of the names in which a pattern occurs. -/
def ofPaths (tree : Files.FileTree) (paths : List Path) (filter : Option String) :
    Except Config.Error Selection :=
  let paths := paths.map tree.key
  match filter with
  | none => .ok { paths }
  | some text =>
    match Pattern.Node.parse text with
    | some pattern => .ok { paths, acceptsName := pattern.occursIn }
    | none => .error .badFilter

/-- Whether there may be selected tests below a directory. -/
def reaches (selection : Selection) (directory : Path) : Bool :=
  selection.paths.isEmpty ||
    selection.paths.any fun path => path.startsWith directory || directory.startsWith path

/-- Whether a file is at or below one of the paths. -/
def covers (selection : Selection) (file : Path) : Bool :=
  selection.paths.isEmpty || selection.paths.any fun path => file.startsWith path

/-- Whether a file is itself one of the paths. -/
def namesFile (selection : Selection) (file : Path) : Bool :=
  selection.paths.any (Path.same · file)

end Selection

end SuiteRunner.Discovery
