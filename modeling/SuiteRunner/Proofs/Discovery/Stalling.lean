import SuiteRunner.Proofs.Config.Endless
import SuiteRunner.Proofs.Discovery.Walk

/-!
# Directories that are never opened

A directory is opened with its local layer, and that is loaded with its parents. Nothing else on
the way through a suite can take for ever. So a walk stalls exactly where it comes to a directory
that it would enter and the parents of whose local layer are loaded without an end.
-/

namespace SuiteRunner

open Files

namespace Config

/-- Nothing is answered at all. -/
def IsEndless {α : Type} (answer : Except Error α) : Prop :=
  ∃ scope, answer = .error (.endless scope)

variable {α β : Type} {tree : FileTree} {cascade : Cascade} {path scope : Path}

theorem not_isEndless_ok (value : α) : ¬ IsEndless (.ok value : Except Error α) := by
  rintro ⟨scope, answer⟩
  cases answer

theorem isEndless_bind_iff {checked : Except Error α} {f : α → Except Error β} :
    IsEndless (checked >>= f) ↔
      IsEndless checked ∨ ∃ value, checked = .ok value ∧ IsEndless (f value) := by
  simp only [IsEndless, bind_eq_error_iff]
  constructor
  · rintro ⟨scope, first | ⟨value, checked, later⟩⟩
    · exact .inl ⟨scope, first⟩
    · exact .inr ⟨value, checked, scope, later⟩
  · rintro (⟨scope, first⟩ | ⟨value, checked, scope, later⟩)
    · exact ⟨scope, .inl first⟩
    · exact ⟨scope, .inr ⟨value, checked, later⟩⟩

theorem not_isEndless_loadLayer (tree : FileTree) (path : Path) :
    ¬ IsEndless (loadLayer tree path) := by
  rintro ⟨scope, failed⟩
  exact loadLayer_ne_endless tree path scope failed

theorem not_isEndless_resolve (cascade : Cascade) (scope : Path) :
    ¬ IsEndless (cascade.resolve scope) := by
  rintro ⟨again, failed⟩
  rw [Cascade.resolve] at failed
  cases followed : cascade.chain scope with
  | ok chain =>
    rw [followed] at failed
    cases failed
  | error fault =>
    rw [followed] at failed
    cases failed
    cases Cascade.chain_eq_error_iff.mp followed

end Config

namespace Discovery

open Config

variable {tree : FileTree} {cascade after : Cascade} {path scope entry : Path}
  {config : EffectiveConfig}

/-- Opening a directory comes to no end: the parent of its local layer, or the layer around it if
that names none, is a file that is not known, and from there the parents go on for ever. -/
def OpensForEver (tree : FileTree) (path scope : Path) (cascade : Cascade) : Prop :=
  tree.isFile (path.child localLayerFile) = true ∧
    ∃ layer, loadLayer tree (path.child localLayerFile) = .ok layer ∧
      (cascade.insert (withParent layer scope)).contains (layer.parent.getD scope) = false ∧
      tree.isFile (layer.parent.getD scope) = true ∧
      (cascade.insert (withParent layer scope)).Endless tree (layer.parent.getD scope)

/-- Where every file is found again, all directories are opened. -/
theorem not_opensForEver
    (again : ∀ parent, tree.isFile parent = true → FindsAgain tree parent) :
    ¬ OpensForEver tree path scope cascade := by
  rintro ⟨-, layer, -, -, isFile, endless⟩
  exact endless.not_findsAgain (again _ isFile)

theorem not_isEndless_checkRequiredTools (tree : FileTree) (config : EffectiveConfig) :
    ¬ IsEndless (checkRequiredTools tree config) := by
  unfold checkRequiredTools
  induction config.requiredTools with
  | nil => exact not_isEndless_ok _
  | cons tool tools ih =>
    change ¬ IsEndless (_ >>= fun _ => tools.forM _)
    rw [isEndless_bind_iff]
    rintro (⟨scope, failed⟩ | ⟨-, -, later⟩)
    · dsimp only at failed
      split at failed <;> cases failed
    · exact ih later

theorem isEndless_loadParent_iff {parent : Path} :
    IsEndless (loadParent tree cascade parent) ↔
      cascade.contains parent = false ∧ tree.isFile parent = true ∧
        cascade.Endless tree parent := by
  rw [Cascade.endless_iff, ← Cascade.load_endless_iff, loadParent]
  split
  next wanted =>
    simp only [Bool.and_eq_true, Bool.not_eq_true'] at wanted
    rw [and_iff_right wanted.1, and_iff_right wanted.2]
    cases cascade.load tree parent with
    | mk after answer =>
      cases answer with
      | ok scope => simp [IsEndless]
      | error fault => simp [IsEndless]
  next settled =>
    refine iff_of_false (not_isEndless_ok _) ?_
    rintro ⟨absent, isFile, -⟩
    refine settled ?_
    rw [absent, isFile]
    rfl

theorem isEndless_applyLocalLayer_iff :
    IsEndless (applyLocalLayer tree path scope config cascade) ↔
      OpensForEver tree path scope cascade := by
  unfold applyLocalLayer OpensForEver
  dsimp only
  split
  next isFile =>
    rw [and_iff_right isFile]
    simp only [isEndless_bind_iff, isEndless_loadParent_iff]
    constructor
    · rintro (first | ⟨layer, loaded, stalls | ⟨after, -, second⟩⟩)
      · exact absurd first (not_isEndless_loadLayer _ _)
      · exact ⟨layer, loaded, stalls⟩
      · rcases second with failed | ⟨config, -, failed | ⟨⟨⟩, -, failed⟩⟩
        · exact absurd failed (not_isEndless_resolve _ _)
        · exact absurd failed (not_isEndless_checkRequiredTools _ _)
        · exact absurd failed (not_isEndless_ok _)
    · rintro ⟨layer, loaded, stalls⟩
      exact .inr ⟨layer, loaded, .inl stalls⟩
  next noFile => exact iff_of_false (not_isEndless_ok _) fun stalls => noFile stalls.1

theorem isEndless_openDirectory_iff :
    IsEndless (openDirectory tree path scope config cascade) ↔
      OpensForEver tree path scope cascade := by
  unfold openDirectory
  rw [isEndless_bind_iff, isEndless_applyLocalLayer_iff, or_iff_left_iff_imp]
  rintro ⟨⟨scope, config, after⟩, -, fault, failed⟩
  dsimp only at failed
  split at failed <;> cases failed

/-- A directory whose local layer has a parent that cannot be loaded is not opened. -/
theorem openDirectory_of_failed {layer : Layer} {parent : Path} {error : Config.Error}
    (isFile : tree.isFile (path.child localLayerFile) = true)
    (loaded : loadLayer tree (path.child localLayerFile) = .ok layer)
    (named : layer.parent = some parent)
    (absent : (cascade.insert (withParent layer scope)).contains parent = false)
    (parentIsFile : tree.isFile parent = true)
    (failed : (cascade.insert (withParent layer scope)).load tree parent = (after, .error error)) :
    openDirectory tree path scope config cascade = .error error := by
  have parents : (withParent layer scope).parent.getD scope = parent := by
    rw [withParent, named]
    rfl
  have loads : loadParent tree (cascade.insert (withParent layer scope)) parent = .error error := by
    rw [loadParent, absent, parentIsFile, failed]
    rfl
  rw [openDirectory, applyLocalLayer, if_pos isFile, loaded]
  change (loadParent tree (cascade.insert (withParent layer scope))
    ((withParent layer scope).parent.getD scope) >>= _) >>= _ = _
  rw [parents, loads]
  rfl

theorem isEndless_start_iff :
    IsEndless (Discovery.start tree cascade entry) ↔
      ∃ config, cascade.resolve entry = .ok config ∧ checkRequiredTools tree config = .ok () ∧
        OpensForEver tree (tree.key config.sourceRoot) entry cascade := by
  unfold start
  simp only [isEndless_bind_iff, isEndless_openDirectory_iff]
  constructor
  · rintro (failed | ⟨config, resolved, failed | ⟨⟨⟩, checked, second⟩⟩)
    · exact absurd failed (not_isEndless_resolve _ _)
    · exact absurd failed (not_isEndless_checkRequiredTools _ _)
    · rcases second with stalls | ⟨_, -, failed⟩
      · exact ⟨config, resolved, checked, stalls⟩
      · exact absurd failed (not_isEndless_ok _)
  · rintro ⟨config, resolved, checked, stalls⟩
    exact .inr ⟨config, resolved, .inr ⟨(), checked, .inl stalls⟩⟩

/-- An entry at which a walk stalls: a directory that is to be entered and is never opened. -/
structure Setting.StallsAt (setting : Setting) (directory : Directory) (name : String)
    (progress : Progress) : Prop where
  included : ∃ relative, (directory.path.child name).relativeTo? setting.root = some relative ∧
    directory.config.isExcluded relative = false
  isDirectory : setting.tree.isDirectory (directory.path.child name) = true
  reached : setting.selection.reaches (directory.path.child name) = true
  unmet : progress.visited.any (Path.same (setting.tree.key (directory.path.child name))) = false
  stalls : OpensForEver setting.tree (directory.path.child name) directory.scope progress.cascade

theorem visit_endless_iff {setting : Setting} {directory : Directory} {name : String}
    {progress : Progress} :
    (∃ scope, setting.visit directory name progress = .failed (.endless scope)) ↔
      setting.StallsAt directory name progress := by
  simp only [visit_eq_failed_iff]
  constructor
  · rintro ⟨scope, relative, below, isDirectory, included, reached, unmet, failed⟩
    exact ⟨⟨relative, below, included⟩, isDirectory, reached, unmet,
      isEndless_openDirectory_iff.mp ⟨scope, failed⟩⟩
  · rintro ⟨⟨relative, below, included⟩, isDirectory, reached, unmet, stalls⟩
    obtain ⟨scope, failed⟩ : IsEndless (openDirectory setting.tree (directory.path.child name)
        directory.scope directory.config progress.cascade) := isEndless_openDirectory_iff.mpr stalls
    exact ⟨scope, relative, below, isDirectory, included, reached, unmet, failed⟩

end Discovery

end SuiteRunner
