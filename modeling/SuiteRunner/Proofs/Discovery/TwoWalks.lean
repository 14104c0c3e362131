import SuiteRunner.Proofs.Discovery.Selection
import SuiteRunner.Proofs.Discovery.Walk

/-!
# A walk and a restricted walk

A selection of directories leaves out the directories that it does not reach. The walk that
is left follows the walk through the whole suite: it comes across the same directories and
tests, with the same configurations, as long as no directory it opens inherits through an
open layer of a directory that was left out.
-/

namespace SuiteRunner.Discovery

open Config Files

/-! ### Two walks -/

variable {setting : Setting} {selection : Selection} {directory inner : Directory}
  {name : String} {full full' restricted : Progress}

/-- The same walk with some other selection. -/
def Setting.withSelection (setting : Setting) (selection : Selection) : Setting :=
  { setting with selection }

/-- How far two walks are of which the second one enters fewer directories. -/
structure Related (tree : FileTree) (kept : Path → Bool) (full restricted : Progress) : Prop where
  settled : ∃ around, full.cascade.Settled tree around ∧
    restricted.cascade.Settled tree (restrictTo kept around)
  within : restricted.cascade.Within full.cascade
  visited : ∀ path, kept path = true →
    restricted.visited.any (Path.same path) = full.visited.any (Path.same path)

theorem isTest_withSelection (directories : selection.ofDirectories setting.tree)
    (canonical : directory.Canonical setting.tree) (named : IsName name)
    (noDirectory : setting.tree.isDirectory (directory.path.child name) = false)
    (config : EffectiveConfig) (relative : Path) :
    (setting.withSelection selection).isTest config (directory.path.child name) relative name =
      ((setting.withSelection selection.whole).isTest config (directory.path.child name) relative
        name && selection.covers (directory.path.child name)) := by
  obtain ⟨place, leads⟩ := canonical.leads
  -- Only directories are selected, so no file is a test by being named.
  have unnamed : selection.namesFile (directory.path.child name) = false := by
    rw [leads.written, Place.child_path leads.valid named] at noDirectory ⊢
    exact Selection.namesFile_eq_false directories (isPlace_append leads.valid named) noDirectory
  simp only [Setting.isTest, Setting.withSelection, Selection.whole, Selection.namesFile,
    Selection.covers, List.any_nil, List.isEmpty_nil, Bool.true_or, Bool.false_or, Bool.and_true]
  rw [Selection.namesFile] at unnamed
  rw [unnamed, Bool.false_or, Bool.and_right_comm]

/-! ### Outside -/

/-- The restricted walk does not look at what is in a directory that is not reached. -/
theorem visit_of_unreached (setting : Setting) (plain : setting.tree.Plain)
    (chosen : selection.paths ≠ []) (directories : selection.ofDirectories setting.tree)
    (canonical : directory.Canonical setting.tree) (named : IsName name)
    (outside : selection.reaches directory.path = false) (progress : Progress) :
    (setting.withSelection selection).visit directory name progress = .skipped := by
  have below := directory.path.components_child named
  have unreached := selection.reaches_eq_false chosen below outside
  have uncovered := selection.covers_eq_false chosen below outside
  refine (visit_eq_skipped_iff (setting.withSelection selection) plain canonical named).mpr ?_
  intro relative _
  refine ⟨fun _ => Or.inr (Or.inl unreached), fun noDirectory => ?_⟩
  rw [isTest_withSelection directories canonical named noDirectory, uncovered, Bool.and_false]

/-- A directory that only the whole walk opens. -/
theorem Related.leave (plain : setting.tree.Plain)
    (spelled : parentsWellSpelled setting.tree = true)
    (canonical : directory.Canonical setting.tree) (named : IsName name)
    (related : Related setting.tree selection.reaches full restricted)
    (unreached : selection.reaches (directory.path.child name) = false)
    (visited : (setting.withSelection selection.whole).visit directory name full =
      .opened inner full') :
    inner.Canonical setting.tree ∧ Related setting.tree selection.reaches full' restricted := by
  obtain ⟨relative, cascade, -, isDirectory, -, -, -, opened, rfl⟩ :=
    (visit_eq_opened_iff (setting.withSelection selection.whole) plain canonical named).mp visited
  obtain ⟨place, leads⟩ := canonical.leads_child plain named isDirectory
  obtain ⟨around, settled, settled'⟩ := related.settled
  obtain ⟨canonical', grows, settledAfter⟩ :=
    openDirectory_settled plain spelled leads settled canonical.held opened
  refine ⟨canonical', ⟨_, settledAfter, ?_⟩, related.within.trans grows, ?_⟩
  -- What lies around the layer file that was inserted does not count for the restricted walk.
  · rwa [restrictTo_entered_of_outside leads unreached]
  · intro path kept
    rw [related.visited path kept, List.any_cons]
    have different : path.same (directory.path.child name) = false := by
      rw [← Bool.not_eq_true]
      intro same
      rw [selection.reaches_congr same, unreached] at kept
      cases kept
    rw [different, Bool.false_or]

/-- In a directory that is not reached the whole walk finds nothing that is selected. -/
theorem visit_outside (plain : setting.tree.Plain)
    (spelled : parentsWellSpelled setting.tree = true) (chosen : selection.paths ≠ [])
    (canonical : directory.Canonical setting.tree) (named : IsName name)
    (outside : selection.reaches directory.path = false)
    (related : Related setting.tree selection.reaches full restricted) :
    ((setting.withSelection selection.whole).visit directory name full).Keeps
      (Related setting.tree selection.reaches · restricted)
      (fun inner => inner.Canonical setting.tree ∧ selection.reaches inner.path = false)
      (fun finding => selection.selects finding = false) := by
  have below := directory.path.components_child named
  -- What is below a directory that is not reached is neither covered nor reached itself.
  cases visited : (setting.withSelection selection.whole).visit directory name full with
  | skipped => trivial
  | failed error => trivial
  | found test =>
    obtain ⟨relative, -, -, -, rfl⟩ := visit_eq_found_iff.mp visited
    change selection.covers _ = false
    rw [loadTest_path]
    exact selection.covers_eq_false chosen below outside
  | opened inner full' =>
    have unreached := selection.reaches_eq_false chosen below outside
    obtain ⟨canonical', related'⟩ :=
      related.leave plain spelled canonical named unreached visited
    rw [← visit_opened_path visited] at unreached
    exact ⟨unreached, ⟨canonical', unreached⟩, related'⟩

/-! ### Inside -/

/-- A directory that both walks open. -/
theorem Related.enter (plain : setting.tree.Plain)
    (spelled : parentsWellSpelled setting.tree = true)
    (canonical : directory.Canonical setting.tree) (named : IsName name)
    (related : Related setting.tree selection.reaches full restricted)
    (reached : selection.reaches (directory.path.child name) = true)
    (visited : (setting.withSelection selection.whole).visit directory name full =
      .opened inner full')
    (supported : ClosedIn setting.tree selection.reaches inner.config.chain) :
    ∃ restricted', (setting.withSelection selection).visit directory name restricted =
        .opened inner restricted' ∧
      inner.Canonical setting.tree ∧ Related setting.tree selection.reaches full' restricted' := by
  -- The whole walk opens the directory; the restricted one has visited the same of what is reached,
  -- so it opens it as well, and what supports its layers is reached too.
  obtain ⟨relative, cascade, below, isDirectory, included, -, unmet, opened, rfl⟩ :=
    (visit_eq_opened_iff (setting.withSelection selection.whole) plain canonical named).mp visited
  obtain ⟨place, leads⟩ := canonical.leads_child plain named isDirectory
  obtain ⟨around, settled, settled'⟩ := related.settled
  obtain ⟨canonical', -, settledFull⟩ :=
    openDirectory_settled plain spelled leads settled canonical.held opened
  obtain ⟨after, opened', settledAfter, within⟩ := openDirectory_follows plain spelled leads reached
    settled settled' related.within canonical.held opened supported
  refine ⟨⟨after, directory.path.child name :: restricted.visited⟩, ?_, canonical',
    ⟨_, settledFull, settledAfter⟩, within, ?_⟩
  · rw [← related.visited _ reached] at unmet
    exact (visit_eq_opened_iff (setting.withSelection selection) plain canonical named).mpr
      ⟨relative, after, below, isDirectory, included, reached, unmet, opened', rfl⟩
  · intro path kept
    rw [List.any_cons, List.any_cons, related.visited path kept]

/-- The restricted walk skips what the whole walk skips. -/
theorem visit_skipped (plain : setting.tree.Plain)
    (directories : selection.ofDirectories setting.tree)
    (canonical : directory.Canonical setting.tree) (named : IsName name)
    (related : Related setting.tree selection.reaches full restricted)
    (skipped : (setting.withSelection selection.whole).visit directory name full = .skipped) :
    (setting.withSelection selection).visit directory name restricted = .skipped := by
  refine (visit_eq_skipped_iff (setting.withSelection selection) plain canonical named).mpr ?_
  intro relative below
  obtain ⟨directory, file⟩ := (visit_eq_skipped_iff (setting.withSelection selection.whole) plain
    canonical named).mp skipped relative below
  constructor
  · intro isDirectory
    cases reached : selection.reaches _ with
    | false => exact Or.inr (Or.inl reached)
    | true =>
      -- A reached directory was visited by both walks or by neither.
      rw [← related.visited _ reached] at directory
      rcases directory isDirectory with excluded | none | met
      · exact Or.inl excluded
      · cases none
      · exact Or.inr (Or.inr met)
  · intro noDirectory
    rw [isTest_withSelection directories canonical named noDirectory, file noDirectory,
      Bool.false_and]

/-- The restricted walk finds those tests that are covered. -/
theorem visit_found (plain : setting.tree.Plain)
    (directories : selection.ofDirectories setting.tree)
    (canonical : directory.Canonical setting.tree) (named : IsName name) {test : TestCase}
    (found : (setting.withSelection selection.whole).visit directory name full = .found test) :
    (setting.withSelection selection).visit directory name restricted =
      if selection.covers test.path then .found test else .skipped := by
  obtain ⟨relative, below, noDirectory, isTest, rfl⟩ := visit_eq_found_iff.mp found
  rw [loadTest_path]
  have isTest' := isTest_withSelection directories canonical named noDirectory directory.config
    relative
  rw [isTest, Bool.true_and] at isTest'
  split
  next covered =>
    exact visit_eq_found_iff.mpr ⟨relative, below, noDirectory, isTest'.trans covered, rfl⟩
  next uncovered =>
    refine (visit_eq_skipped_iff (setting.withSelection selection) plain canonical named).mpr ?_
    intro relative' below'
    cases below.symm.trans below'
    refine ⟨fun isDirectory => ?_, fun _ => isTest'.trans (Bool.not_eq_true _ ▸ uncovered)⟩
    cases noDirectory.symm.trans isDirectory

/-- The restricted walk does not open what it does not reach. -/
theorem visit_opened_of_unreached (plain : setting.tree.Plain)
    (canonical : directory.Canonical setting.tree) (named : IsName name)
    (unreached : selection.reaches (directory.path.child name) = false)
    (visited : (setting.withSelection selection.whole).visit directory name full =
      .opened inner full') :
    (setting.withSelection selection).visit directory name restricted = .skipped := by
  obtain ⟨-, -, -, isDirectory, -⟩ :=
    (visit_eq_opened_iff (setting.withSelection selection.whole) plain canonical named).mp visited
  refine (visit_eq_skipped_iff (setting.withSelection selection) plain canonical named).mpr ?_
  intro relative _
  refine ⟨fun _ => Or.inr (Or.inl unreached), fun noDirectory => ?_⟩
  cases noDirectory.symm.trans isDirectory

/-! ### Whole walks -/

/-- All selected directories inherit through open layers of selected directories only. -/
def Supported (tree : FileTree) (selection : Selection) (findings : List Finding) : Prop :=
  ∀ inner, .directory inner ∈ findings → selection.reaches inner.path = true →
    ClosedIn tree selection.reaches inner.config.chain

theorem Supported.of_subset {tree : FileTree} {findings some : List Finding}
    (supported : Supported tree selection findings) (among : some ⊆ findings) :
    Supported tree selection some :=
  fun inner member => supported inner (among member)

/-- From a directory that is not reached, the whole walk comes back without a selected finding. -/
theorem walkDirectory_outside (setting : Setting) (plain : setting.tree.Plain)
    (spelled : parentsWellSpelled setting.tree = true) (chosen : selection.paths ≠ [])
    (depth : Nat) (canonical : directory.Canonical setting.tree)
    (outside : selection.reaches directory.path = false)
    (related : Related setting.tree selection.reaches full restricted) :
    Part.Keeps (Related setting.tree selection.reaches · restricted)
      (fun finding => selection.selects finding = false)
      (walkDirectory (setting.withSelection selection.whole) depth directory full) := by
  refine walkDirectory_keeps (Related setting.tree selection.reaches · restricted)
    (fun inner => inner.Canonical setting.tree ∧ selection.reaches inner.path = false)
    (fun finding => selection.selects finding = false) ?_ ⟨canonical, outside⟩ related
  rintro directory ⟨canonical, outside⟩ name member full related
  exact visit_outside plain spelled chosen canonical (canonical.named name member) outside related

/-- The restricted walk follows the whole walk through some directories, if it does so
through the directories in them. -/
def Follows (setting : Setting) (selection : Selection)
    (walked walked' : Directory → Progress → Part) : Prop :=
  ∀ {directory full restricted findings full'}, directory.Canonical setting.tree →
    selection.reaches directory.path = true →
    Related setting.tree selection.reaches full restricted →
    walked directory full = (findings, .ok full') → Supported setting.tree selection findings →
    ∃ restricted',
      walked' directory restricted = (findings.filter selection.selects, .ok restricted') ∧
      Related setting.tree selection.reaches full' restricted'

/-- One entry of a directory that both walks have opened. -/
theorem walkEntry_follows (plain : setting.tree.Plain)
    (spelled : parentsWellSpelled setting.tree = true) (chosen : selection.paths ≠ [])
    (directories : selection.ofDirectories setting.tree) {depth : Nat}
    (follows : Follows setting selection
      (walkDirectory (setting.withSelection selection.whole) depth)
      (walkDirectory (setting.withSelection selection) depth))
    (canonical : directory.Canonical setting.tree) (named : IsName name)
    (related : Related setting.tree selection.reaches full restricted) {findings : List Finding}
    (walked : walkEntry (setting.withSelection selection.whole)
      (walkDirectory (setting.withSelection selection.whole) depth) directory name full =
        (findings, .ok full'))
    (supported : Supported setting.tree selection findings) :
    ∃ restricted', walkEntry (setting.withSelection selection)
        (walkDirectory (setting.withSelection selection) depth) directory name restricted =
          (findings.filter selection.selects, .ok restricted') ∧
      Related setting.tree selection.reaches full' restricted' := by
  rw [walkEntry] at walked ⊢
  split at walked
  next skipped =>
    cases walked
    rw [visit_skipped plain directories canonical named related skipped]
    exact ⟨restricted, rfl, related⟩
  next test found =>
    cases walked
    rw [visit_found plain directories canonical named found]
    refine ⟨restricted, ?_, related⟩
    cases covered : selection.covers test.path <;> simp [Selection.selects, covered]
  next => cases walked
  next opened progress visited =>
    obtain ⟨_, _, inside, same, ended, rfl⟩ := Part.andThen_eq_ok_iff.mp walked
    cases same
    have path := visit_opened_path visited
    have supportedInside := supported.of_subset (List.subset_append_right _ _)
    cases reached : selection.reaches (directory.path.child name) with
    | true =>
      -- Both walks open the directory and go through it.
      obtain ⟨between, visited', canonical', related'⟩ := related.enter plain spelled
        canonical named reached visited (supported opened List.mem_cons_self (path ▸ reached))
      obtain ⟨restricted', ended', related''⟩ :=
        follows canonical' (path ▸ reached) related' ended supportedInside
      refine ⟨restricted', ?_, related''⟩
      rw [visited']
      refine Part.andThen_eq_ok_iff.mpr ⟨_, between, _, rfl, ended', ?_⟩
      simp [Selection.selects, path, reached]
    | false =>
      -- Only the whole walk opens it, and comes back with nothing that is selected.
      obtain ⟨canonical', related'⟩ :=
        related.leave plain spelled canonical named reached visited
      obtain ⟨unselected, further⟩ := walkDirectory_outside setting plain spelled chosen depth
        canonical' (path ▸ reached) related'
      rw [ended] at unselected further
      refine ⟨restricted, ?_, further full' rfl⟩
      have none : inside.filter selection.selects = [] := by simpa using unselected
      rw [visit_opened_of_unreached plain canonical named reached visited]
      simp [Selection.selects, path, reached, none]

theorem walkEntries_follows (plain : setting.tree.Plain)
    (spelled : parentsWellSpelled setting.tree = true) (chosen : selection.paths ≠ [])
    (directories : selection.ofDirectories setting.tree) {depth : Nat}
    (follows : Follows setting selection
      (walkDirectory (setting.withSelection selection.whole) depth)
      (walkDirectory (setting.withSelection selection) depth))
    (canonical : directory.Canonical setting.tree) {names : List String}
    (listed : ∀ name ∈ names, name ∈ directory.names)
    (related : Related setting.tree selection.reaches full restricted) {findings : List Finding}
    (walked : walkEntries (setting.withSelection selection.whole)
      (walkDirectory (setting.withSelection selection.whole) depth) directory names full =
        (findings, .ok full'))
    (supported : Supported setting.tree selection findings) :
    ∃ restricted', walkEntries (setting.withSelection selection)
        (walkDirectory (setting.withSelection selection) depth) directory names restricted =
          (findings.filter selection.selects, .ok restricted') ∧
      Related setting.tree selection.reaches full' restricted' := by
  -- Both walks look at the same names in the same order; what differs is the progress.
  induction names generalizing full restricted findings with
  | nil =>
    cases walked
    exact ⟨restricted, rfl, related⟩
  | cons name names ih =>
    rw [walkEntries_cons] at walked ⊢
    obtain ⟨inside, between, more, first, rest, rfl⟩ := Part.andThen_eq_ok_iff.mp walked
    obtain ⟨between', first', related'⟩ := walkEntry_follows plain spelled chosen directories
      follows canonical (canonical.named name (listed name List.mem_cons_self)) related first
      (supported.of_subset (List.subset_append_left _ _))
    obtain ⟨restricted', rest', related''⟩ := ih
      (fun other member => listed other (List.mem_cons_of_mem _ member)) related' rest
      (supported.of_subset (List.subset_append_right _ _))
    exact ⟨restricted', Part.andThen_eq_ok_iff.mpr
      ⟨_, between', _, first', rest', List.filter_append _ _⟩, related''⟩

theorem walkDirectory_follows (setting : Setting) (plain : setting.tree.Plain)
    (spelled : parentsWellSpelled setting.tree = true) (chosen : selection.paths ≠ [])
    (directories : selection.ofDirectories setting.tree) (depth : Nat) :
    Follows setting selection (walkDirectory (setting.withSelection selection.whole) depth)
      (walkDirectory (setting.withSelection selection) depth) := by
  induction depth with
  | zero =>
    intro directory full restricted findings full' canonical inside related walked supported
    cases walked
    exact ⟨restricted, rfl, related⟩
  | succ depth ih =>
    intro directory full restricted findings full' canonical inside related walked supported
    exact walkEntries_follows plain spelled chosen directories ih canonical (fun _ => id) related
      walked supported

theorem walkEntries_of_skipped {enter : Directory → Progress → Part}
    {progress : Progress} {names : List String}
    (skipped : ∀ name ∈ names, setting.visit directory name progress = .skipped) :
    walkEntries setting enter directory names progress = ([], .ok progress) := by
  induction names with
  | nil => rfl
  | cons name names ih =>
    rw [walkEntries, skipped name List.mem_cons_self]
    exact ih fun other member => skipped other (List.mem_cons_of_mem _ member)

/-! ### What a walk has entered -/

/-- A walk that has entered directories of some kind only. -/
def Progress.EntersOnly (progress : Progress) (tree : FileTree) (kept : Path → Bool) : Prop :=
  ∃ around, progress.cascade.Settled tree around ∧
    ∀ scope, around scope ≠ none → kept (directoryOf scope) = true

/-- What a walk opens inherits only through open layers of directories that the walk reaches. -/
theorem walkDirectory_closedIn (setting : Setting) (plain : setting.tree.Plain)
    (spelled : parentsWellSpelled setting.tree = true) {depth : Nat}
    (canonical : directory.Canonical setting.tree)
    (supported : ClosedIn setting.tree setting.selection.reaches directory.config.chain)
    {progress : Progress}
    (initial : progress.EntersOnly setting.tree setting.selection.reaches) :
    ∀ inner, .directory inner ∈ (walkDirectory setting depth directory progress).1 →
      ClosedIn setting.tree setting.selection.reaches inner.config.chain := by
  suffices kept : Part.Keeps (Progress.EntersOnly · setting.tree setting.selection.reaches)
      (fun finding => ∀ inner, finding = .directory inner →
        ClosedIn setting.tree setting.selection.reaches inner.config.chain)
      (walkDirectory setting depth directory progress) from
    fun inner member => kept.1 _ member inner rfl
  -- The invariant of the walk speaks of the directories entered so far, so what was opened
  -- before stays supported while the walk goes on.
  refine walkDirectory_keeps _ (fun inner => inner.Canonical setting.tree ∧
    ClosedIn setting.tree setting.selection.reaches inner.config.chain) _ ?_
    ⟨canonical, supported⟩ initial
  rintro directory ⟨canonical, supported⟩ name member progress ⟨around, settled, within⟩
  have named := canonical.named name member
  cases visited : setting.visit directory name progress with
  | skipped => trivial
  | failed error => trivial
  | found test => exact fun inner same => by cases same
  | opened inner after =>
    obtain ⟨relative, cascade, -, isDirectory, -, reached, -, opened, rfl⟩ :=
      (visit_eq_opened_iff setting plain canonical named).mp visited
    obtain ⟨place, leads⟩ := canonical.leads_child plain named isDirectory
    obtain ⟨canonical', -, settled'⟩ :=
      openDirectory_settled plain spelled leads settled canonical.held opened
    have supported' := openDirectory_closedIn plain spelled leads settled canonical.held supported
      (entered_within leads reached within) opened
    exact ⟨fun _ same => by cases same; exact supported', ⟨canonical', supported'⟩, _, settled',
      entered_within leads reached within⟩

end SuiteRunner.Discovery
