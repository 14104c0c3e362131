import SuiteRunner.CommandLine.Execution
import SuiteRunner.Shell.Host

/-!
# The program

The files below the working directory and the layer files above it are read, the command
line is carried out on them, and what has changed is written back. Commands run in the
shell of this library; a file counts as executable if it names an interpreter.
-/

namespace SuiteRunner

open Files

/-- The places on the way to a place, from the top. -/
def placesTo (place : Place) : List Place :=
  (List.range place.length).map fun count => place.take (count + 1)

def isScript (content : ByteArray) : Bool := content.extract 0 2 == "#!".toUTF8

/-- The parts of the tree that every system has. -/
def systemEntries : List (Place × Entry) :=
  [(["bin"], .directory), (["bin", "sh"], .file .empty true), (["dev"], .directory),
    (["dev", "null"], .sink), (["tmp"], .directory)]

/-- Read everything at and below a place. -/
partial def readBelow (place : Place) (tree : FileTree) : IO FileTree := do
  let here ← IO.currentDir
  let path := here / place.path.shown
  let metadata ← path.symlinkMetadata
  match metadata.type with
  | .dir =>
    let mut tree := tree.put place .directory
    for entry in ← path.readDir do
      tree ← readBelow (place ++ [Text.pack entry.fileName]) tree
    return tree
  | .symlink => return tree.put place (.link (Text.pack (← IO.FS.realPath path).toString))
  | .file =>
    let content ← IO.FS.readBinFile path
    return tree.put place (.file content (isScript content))
  | .other => return tree.put place .sink

/-- Read the directories above a place, and of their files only the layer files. -/
def readAbove (place : Place) (tree : FileTree) : IO FileTree := do
  let here ← IO.currentDir
  let mut tree := tree
  for above in placesTo place.dropLast do
    tree := tree.put above .directory
    let file := above ++ [Config.layerFile]
    if ← (here / file.path.shown).pathExists then
      tree := tree.put file (.file (← IO.FS.readBinFile file.path.shown) false)
  return tree

def readTree (workingDirectory : Place) : IO FileTree := do
  let tree : FileTree := { entries := systemEntries, workingDirectory }
  readBelow workingDirectory (← readAbove workingDirectory tree)

/-- Whether an entry has to be written, given what was there before. -/
def hasChanged (before : Option Entry) (entry : Entry) : Bool :=
  match before, entry with
  | some (.file old _), .file new _ => old != new
  | some .directory, .directory | some .sink, .sink | some (.link _), .link _ => false
  | _, _ => true

/-- Write what has changed in a tree. -/
def writeChanges (before after : FileTree) : IO Unit := do
  for (place, entry) in after.entries do
    if hasChanged (before.entry? place) entry then
      match entry with
      | .directory => IO.FS.createDirAll place.path.shown
      | .file content _ => IO.FS.writeBinFile place.path.shown content
      | .link _ | .sink => pure ()
  for (place, entry) in before.entries do
    if (after.entry? place).isNone then
      match entry with
      | .file _ _ => IO.FS.removeFile place.path.shown
      | _ => pure ()

/-- The place of an absolute path without links. -/
def placeOf (path : Path) : Place :=
  path.components.filterMap fun component =>
    match component with
    | .name text => some text
    | _ => none

/-- Carry out a command line in the working directory. -/
def runProgram (arguments : List String) : IO CommandLine.Ending := do
  let tree ← readTree (placeOf (.ofText (← IO.currentDir).toString))
  let (ending, world) := CommandLine.carryOutAll { executor := Shell.executor }
    (CommandLine.programName :: arguments) { tree }
  writeChanges tree world.tree
  return ending

/-- Go on for ever. -/
partial def goOn : IO UInt32 := do
  IO.sleep 1000
  goOn

end SuiteRunner

def main (arguments : List String) : IO UInt32 := do
  let ending ← SuiteRunner.runProgram arguments
  (← IO.getStdout).putStr ending.stdout
  (← IO.getStderr).putStr ending.stderr
  match ending.exitCode with
  | some code => return UInt32.ofNat code
  | none => SuiteRunner.goOn
