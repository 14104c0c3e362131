import SuiteRunner.Path.Basic

/-!
# Substitution rules

A rule replaces one literal pattern by one literal text. The rules that every test has
speak of where the test lies and where it may write; the scratch path is the test's own
relative path under `Output` in the execution root, with `.tmp` behind the file name.
-/

namespace SuiteRunner.Substitution

structure Rule where
  pattern : String
  replacement : String
  deriving DecidableEq, Repr

/-- The placeholder under which a tool or library is written: its name in braces behind a
percent sign. -/
def placeholder (name : String) : String := "%\x7b" ++ name ++ "\x7d"

/-- The placeholder of a variable. -/
def variablePlaceholder (name : String) : String := placeholder ("var:" ++ name)

/-- Between the entries of a list of paths. -/
def pathListSeparator : String := ":"

/-! ### The paths of a test -/

structure TestPaths where
  /-- The test file. -/
  source : Path
  /-- The scratch path, which is to be this test's alone. -/
  temp : Path
  /-- The directory of the scratch path, in which the commands run. -/
  tempDir : Path
  deriving DecidableEq, Repr

namespace TestPaths

/-- The name of the scratch file of a test file. It is what the name is shown as that gets
the suffix. -/
def scratchName (name : String) : String := Text.pack (Text.shown name ++ ".tmp")

def ofTest (source relative execRoot : Path) : TestPaths :=
  let output := (execRoot.child "Output").join relative
  let temp := output.withFileName ((output.fileName?.map scratchName).getD "test.tmp")
  ⟨source, temp, temp.parent?.getD execRoot⟩

def sourceDir (paths : TestPaths) : Path := paths.source.parent?.getD ⟨"."⟩

/-- The rules that every test has. -/
def rules (paths : TestPaths) : List Rule :=
  [⟨"%s", paths.source.shown⟩,
   ⟨"%S", paths.sourceDir.shown⟩,
   ⟨"%p", paths.sourceDir.shown⟩,
   ⟨"%t", paths.temp.shown⟩,
   ⟨"%T", paths.tempDir.shown⟩,
   ⟨placeholder "pathsep", pathListSeparator⟩]

end TestPaths

end SuiteRunner.Substitution
