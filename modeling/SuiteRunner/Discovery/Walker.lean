import SuiteRunner.Discovery.Walk

/-!
# Walking step by step

A walker gives the tests of a suite one at a time. It keeps the directories it is in, the
innermost first, each with the names it has still to look at, and it stops for good after an
error. It never enters a directory twice, so between two answers it makes only so many steps.
-/

namespace SuiteRunner.Discovery

open Config Files

/-- A directory, and those of its names that are still to be looked at. -/
structure Frame where
  directory : Directory
  names : List String

structure Walker where
  setting : Setting
  /-- The directories that the walker is in, the innermost first. -/
  stack : List Frame
  progress : Progress

/-! ### What is still ahead -/

theorem visit_opened {setting : Setting} {directory inner : Directory} {name : String}
    {progress after : Progress}
    (visited : setting.visit directory name progress = .opened inner after) :
    ∃ relative cascade, (directory.path.child name).relativeTo? setting.root = some relative ∧
      setting.tree.isDirectory (directory.path.child name) = true ∧
      directory.config.isExcluded relative = false ∧
      setting.selection.reaches (directory.path.child name) = true ∧
      progress.visited.any (Path.same (setting.tree.key (directory.path.child name))) = false ∧
      openDirectory setting.tree (directory.path.child name) directory.scope directory.config
        progress.cascade = .ok (inner, cascade) ∧
      after = ⟨cascade, setting.tree.key (directory.path.child name) :: progress.visited⟩ := by
  unfold Setting.visit at visited
  dsimp only at visited
  split at visited
  next => cases visited
  next relative below =>
    split at visited
    next isDirectory =>
      split at visited
      next => cases visited
      next allowed =>
        split at visited
        next => cases visited
        next unmet =>
          split at visited
          next => cases visited
          next cascade opened =>
            cases visited
            simp only [Bool.or_eq_true, Bool.not_eq_true', not_or, Bool.not_eq_true,
              Bool.not_eq_false] at allowed unmet
            exact ⟨relative, cascade, below, isDirectory, allowed.1, allowed.2, unmet, opened, rfl⟩
    next => split at visited <;> cases visited

/-- The places at which there may be directories that have not been entered. -/
def Progress.ahead (progress : Progress) (tree : FileTree) : List Place :=
  ([] :: tree.entries.map Prod.fst).filter fun place =>
    !progress.visited.any (Path.same (Place.path place))

theorem exists_place_of_isDirectory {tree : FileTree} {path : Path}
    (isDirectory : tree.isDirectory path = true) :
    ∃ place, tree.key path = place.path ∧ tree.entry? place = some .directory := by
  unfold FileTree.isDirectory FileTree.find at isDirectory
  cases located : tree.locate path {} with
  | error failure => simp [located] at isDirectory
  | ok place =>
    refine ⟨place, by simp [FileTree.key, FileTree.canonical?, located], ?_⟩
    cases stands : tree.entry? place with
    | none => simp [located, stands] at isDirectory
    | some entry =>
      cases entry with
      | directory => rfl
      | _ => simp [located, stands] at isDirectory

theorem mem_places {tree : FileTree} {place : Place} {entry : Entry}
    (stands : tree.entry? place = some entry) : place ∈ [] :: tree.entries.map Prod.fst := by
  unfold FileTree.entry? at stands
  split at stands
  next root => rw [List.isEmpty_iff.mp root]; exact List.mem_cons_self
  next =>
    obtain ⟨before, after, split, -⟩ := List.lookup_eq_some_iff.mp stands
    rw [split]
    simp

/-- Entering a directory leaves less ahead. -/
theorem ahead_lt_of_opened {setting : Setting} {directory inner : Directory} {name : String}
    {progress after : Progress}
    (visited : setting.visit directory name progress = .opened inner after) :
    (after.ahead setting.tree).length < (progress.ahead setting.tree).length := by
  obtain ⟨relative, cascade, -, isDirectory, -, -, unmet, -, rfl⟩ := visit_opened visited
  obtain ⟨place, key, stands⟩ := exists_place_of_isDirectory isDirectory
  rw [key] at unmet ⊢
  have fewer : Progress.ahead ⟨cascade, Place.path place :: progress.visited⟩ setting.tree =
      (progress.ahead setting.tree).filter fun other =>
        !(Place.path other).same (Place.path place) := by
    simp only [Progress.ahead, List.filter_filter, List.any_cons, Bool.not_or]
  -- The place of the directory itself was ahead, and is no longer.
  rw [fewer, List.length_filter_lt_length_iff_exists]
  refine ⟨place, List.mem_filter.mpr ⟨mem_places stands, by simp [unmet]⟩, ?_⟩
  simp [Path.same_iff]

namespace Walker

/-- How many names and ends of directories the walker has still to deal with. -/
def pending (walker : Walker) : Nat :=
  walker.stack.foldr (fun frame rest => frame.names.length + 1 + rest) 0

/-! ### Answers -/

/-- Walk on to the next test or error. -/
def next (walker : Walker) : Option (Except Config.Error TestCase) × Walker :=
  match walker with
  | ⟨_, [], _⟩ => (none, walker)
  | ⟨setting, ⟨_, []⟩ :: stack, progress⟩ => next ⟨setting, stack, progress⟩
  | ⟨setting, ⟨directory, name :: names⟩ :: stack, progress⟩ =>
    match visited : setting.visit directory name progress with
    | .skipped => next ⟨setting, ⟨directory, names⟩ :: stack, progress⟩
    | .found test => (some (.ok test), ⟨setting, ⟨directory, names⟩ :: stack, progress⟩)
    | .failed error => (some (.error error), ⟨setting, [], progress⟩)
    | .opened inner progress' =>
      have := ahead_lt_of_opened visited
      next ⟨setting, ⟨inner, inner.names⟩ :: ⟨directory, names⟩ :: stack, progress'⟩
termination_by ((walker.progress.ahead walker.setting.tree).length, walker.pending)
decreasing_by
  -- A directory that is entered is not entered again; all other steps use up a name or a frame.
  · exact Prod.Lex.right _ (by simp [pending])
  · exact Prod.Lex.right _ (by simp [pending])
  · exact Prod.Lex.left _ _ this

/-- The walker after some calls. -/
def after (walker : Walker) : (calls : Nat) → Walker
  | 0 => walker
  | calls + 1 => (walker.after calls).next.2

/-- What a walker answers when it is called for the next time after some calls. -/
def answer (walker : Walker) (calls : Nat) : Option (Except Config.Error TestCase) :=
  (walker.after calls).next.1

/-- A walker at the source root of the configuration in effect for `entry`. -/
def start (tree : FileTree) (cascade : Cascade) (entry : Path) (selection : Selection) :
    Except Config.Error Walker := do
  let (directory, progress) ← Discovery.start tree cascade entry
  let setting : Setting := { tree, root := directory.path, selection }
  return ⟨setting, [⟨directory, directory.names⟩], progress⟩

end Walker

end SuiteRunner.Discovery
