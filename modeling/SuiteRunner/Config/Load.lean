import SuiteRunner.Config.Cascade
import SuiteRunner.Config.Decode
import SuiteRunner.Text.Utf8

/-!
# Loading layers

A layer file is read under its identity in the file tree. Loading a chain follows the
parents for as long as they are files that have not been loaded; a parent that is no file
is left to the cascade, which says whose parent it was. Only the layer with which loading
began is read without asking what stands there. Parents that come back are not always found
where they were stored, and then loading never ends. The suite of a path starts from the
layer file in the nearest directory at or above the path.
-/

namespace SuiteRunner.Config

open Files

/-- Read one layer file. -/
def loadLayer (tree : FileTree) (path : Path) : Except Error Layer :=
  let scope := tree.key path
  match tree.read scope with
  | .error cause => .error (.unreadable scope cause)
  | .ok content =>
    match Text.decode? content with
    | none => .error (.unreadable scope .notUtf8)
    | some source => Layer.parse tree scope source

/-- Whether loading goes on with a parent: it is a file, or it is the entry once more, of which
that is not asked. -/
def isFollowed (tree : FileTree) (entry parent : Path) : Bool :=
  entry.same parent || tree.isFile parent

namespace Cascade

/-- Load the layer `scope` and its parents, having begun with the layer `entry`; what was loaded
before something went wrong stays. The bound `fuel` is on the number of layers that are looked
for. -/
def loadFrom (tree : FileTree) (entry scope : Path) :
    (fuel : Nat) → Cascade → Cascade × Option Error
  | 0, cascade => (cascade, some (.endless scope))
  | fuel + 1, cascade =>
    if cascade.contains scope then (cascade, none)
    else
      match loadLayer tree scope with
      | .error error => (cascade, some error)
      | .ok layer =>
        let cascade := cascade.insert layer
        match layer.parent with
        | none => (cascade, none)
        | some parent =>
          if isFollowed tree entry parent then loadFrom tree entry parent fuel cascade
          else (cascade, none)

/-- How many layers are looked for at most, if loading ends at all: a file that has been read
for the second time would be read again and again. -/
def loadLimit (tree : FileTree) : Nat := 2 * (tree.entries.length + 2)

/-- Load a layer file with all its parents that are there, and say under which scope it can
be found. -/
def load (cascade : Cascade) (tree : FileTree) (path : Path) : Cascade × Except Error Path :=
  let scope := tree.key path
  match loadFrom tree scope scope (loadLimit tree) cascade with
  | (cascade, none) => (cascade, .ok scope)
  | (cascade, some error) => (cascade, .error error)

end Cascade

/-! ### The start of a suite -/

/-- Where the search for a layer file starts. -/
def searchStart (tree : FileTree) (start : Path) : Option Path :=
  if tree.isFile start then start.parent? else some start

/-- The nearest layer file at or above a path. -/
def findEntryLayer (tree : FileTree) (start : Path) : Except Error Path :=
  let start := (Path.absolute? tree.workingDirectory.path start).getD start
  let directories := (searchStart tree start).elim [] Path.ancestors
  match (directories.map (·.child layerFile)).find? tree.isFile with
  | some file => .ok file
  | none => .error (.noEntryLayer start)

end SuiteRunner.Config
