import SuiteRunner.Config.Load
import SuiteRunner.Discovery.Selection
import SuiteRunner.Discovery.TestCase

/-!
# Walking a suite

The walk goes through the source root depth first, the entries of each directory in the
order of their names. A local layer file changes the configuration for its directory and
everything below; unless it names a parent it inherits from the layer in effect around
it. A directory that links lead back to is not walked again, so a walk is no deeper than
there are directories.
-/

namespace SuiteRunner.Discovery

open Config Files

/-- An opened directory: what is in it, and the layer and configuration in effect there. -/
structure Directory where
  path : Path
  names : List String
  scope : Path
  config : EffectiveConfig

/-- What a walk has gathered on its way. -/
structure Progress where
  cascade : Cascade
  /-- The identities of the directories that were entered. -/
  visited : List Path

/-- What a walk comes across: a directory below the source root that it opens, or a test. -/
inductive Finding where
  | directory (opened : Directory)
  | test (test : TestCase)

def Finding.test? : Finding → Option TestCase
  | directory _ => none
  | test found => some found

def Finding.directory? : Finding → Option Directory
  | directory opened => some opened
  | test _ => none

/-- A whole walk: what it came across, in this order, and what ended it early. -/
structure Walk where
  findings : List Finding
  problem : Option Config.Error

def Walk.tests (walk : Walk) : List TestCase := walk.findings.filterMap Finding.test?

/-! ### Opening a directory -/

/-- Every tool without which the tests of a configuration must not even be looked for. -/
def checkRequiredTools (tree : FileTree) (config : EffectiveConfig) : Except Config.Error Unit :=
  config.requiredTools.forM fun tool =>
    match config.places.tool tree tool with
    | .ok _ => .ok ()
    | .error missing => .error (.requiredTool config.leafScope missing)

/-- A layer that inherits from `scope` unless it names a parent itself. -/
def withParent (layer : Layer) (scope : Path) : Layer :=
  { layer with parent := some (layer.parent.getD scope) }

/-- Load the parents of a layer that are files and have not been loaded. -/
def loadParent (tree : FileTree) (cascade : Cascade) (parent : Path) :
    Except Config.Error Cascade :=
  if !cascade.contains parent && tree.isFile parent then
    match cascade.load tree parent with
    | (cascade, .ok _) => .ok cascade
    | (_, .error error) => .error error
  else .ok cascade

/-- Apply the local layer of a directory, if it has one. -/
def applyLocalLayer (tree : FileTree) (directory scope : Path) (config : EffectiveConfig)
    (cascade : Cascade) : Except Config.Error (Path × EffectiveConfig × Cascade) :=
  let file := directory.child localLayerFile
  if tree.isFile file then do
    let layer := withParent (← loadLayer tree file) scope
    let cascade ← loadParent tree (cascade.insert layer) (layer.parent.getD scope)
    let config ← cascade.resolve layer.scope
    checkRequiredTools tree config
    return (layer.scope, config, cascade)
  else .ok (scope, config, cascade)

/-- Whether an entry of this name is looked at. -/
def isVisible (name : String) : Bool :=
  !name.startsWith "." && name != layerFile && name != localLayerFile

/-- The names of the entries to look at, in order. -/
def visibleNames (names : List String) : List String :=
  Ordered.insertAll [] (names.filter isVisible)

/-- Open a directory around which a layer and its configuration are in effect. -/
def openDirectory (tree : FileTree) (path scope : Path) (config : EffectiveConfig)
    (cascade : Cascade) : Except Config.Error (Directory × Cascade) := do
  let (scope, config, cascade) ← applyLocalLayer tree path scope config cascade
  match tree.names path with
  | .error cause => .error (.unreadable path cause)
  | .ok names => .ok (⟨path, visibleNames names, scope, config⟩, cascade)

/-! ### Walking -/

/-- What stays the same during a walk. -/
structure Setting where
  tree : FileTree
  root : Path
  selection : Selection

/-- Whether a file is one of the tests. -/
def Setting.isTest (setting : Setting) (config : EffectiveConfig) (path relative : Path)
    (name : String) : Bool :=
  (setting.selection.namesFile path || config.isTestName (Text.shown name)) &&
    !config.isExcluded relative && setting.selection.covers path &&
    setting.selection.acceptsName (displayName relative)

/-- The test in a file. -/
def loadTest (tree : FileTree) (path relative : Path) (config : EffectiveConfig) : TestCase :=
  match tree.read path with
  | .ok content => .ofText path relative config (Text.decodeLossy content)
  | .error cause => { path, relative, config, directives := .error (.unreadable cause) }

/-- What an entry of a directory is to a walk. -/
inductive Visit where
  | skipped
  | found (test : TestCase)
  | opened (inner : Directory) (progress : Progress)
  | failed (error : Config.Error)

/-- Look at one entry of a directory; a directory that is to be walked through is opened. -/
def Setting.visit (setting : Setting) (directory : Directory) (name : String)
    (progress : Progress) : Visit :=
  let tree := setting.tree
  let path := directory.path.child name
  match path.relativeTo? setting.root with
  | none => .skipped
  | some relative =>
    let config := directory.config
    if tree.isDirectory path then
      let key := tree.key path
      if config.isExcluded relative || !setting.selection.reaches path then .skipped
      else if progress.visited.any (Path.same key) then .skipped
      else
        match openDirectory tree path directory.scope config progress.cascade with
        | .error error => .failed error
        | .ok (inner, cascade) => .opened inner ⟨cascade, key :: progress.visited⟩
    else if setting.isTest config path relative name then
      .found (loadTest tree path relative config)
    else .skipped

/-- Walk through entries of a directory until one of them ends the walk; `enter` walks through
a directory. -/
def walkEntries (setting : Setting)
    (enter : Directory → Progress → List Finding × Except Config.Error Progress)
    (directory : Directory) : List String → Progress →
      List Finding × Except Config.Error Progress
  | [], progress => ([], .ok progress)
  | name :: names, progress =>
    match setting.visit directory name progress with
    | .skipped => walkEntries setting enter directory names progress
    | .found test =>
      let (more, progress) := walkEntries setting enter directory names progress
      (.test test :: more, progress)
    | .failed error => ([], .error error)
    | .opened inner progress =>
      match enter inner progress with
      | (findings, .error error) => (.directory inner :: findings, .error error)
      | (findings, .ok progress) =>
        let (more, progress) := walkEntries setting enter directory names progress
        (.directory inner :: findings ++ more, progress)

/-- Walk through an opened directory and, down to some depth, everything below it. -/
def walkDirectory (setting : Setting) : (depth : Nat) → Directory → Progress →
    List Finding × Except Config.Error Progress
  | 0, _, progress => ([], .ok progress)
  | depth + 1, directory, progress =>
    walkEntries setting (walkDirectory setting depth) directory directory.names progress

/-- The start of a walk: the source root of the configuration in effect for `entry`, opened. -/
def start (tree : FileTree) (cascade : Cascade) (entry : Path) :
    Except Config.Error (Directory × Progress) := do
  let config ← cascade.resolve entry
  checkRequiredTools tree config
  let root := tree.key config.sourceRoot
  let (directory, cascade) ← openDirectory tree root entry config cascade
  return (directory, ⟨cascade, [root]⟩)

/-- Find the selected tests of a suite. -/
def walk (tree : FileTree) (cascade : Cascade) (entry : Path) (selection : Selection) :
    Except Config.Error Walk := do
  let (directory, progress) ← start tree cascade entry
  let setting : Setting := { tree, root := directory.path, selection }
  match walkDirectory setting (tree.entries.length + 2) directory progress with
  | (findings, .ok _) => return ⟨findings, none⟩
  | (findings, .error error) => return ⟨findings, some error⟩

/-- Find the selected tests of a suite that nothing is wrong with. -/
def discover (tree : FileTree) (cascade : Cascade) (entry : Path) (selection : Selection) :
    Except Config.Error (List TestCase) := do
  let walk ← walk tree cascade entry selection
  match walk.problem with
  | none => return walk.tests
  | some error => .error error

end SuiteRunner.Discovery
