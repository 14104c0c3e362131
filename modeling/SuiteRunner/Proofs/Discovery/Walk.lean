import SuiteRunner.Discovery.Walker
import SuiteRunner.Proofs.Discovery.Opening
import SuiteRunner.Proofs.Path.Components

/-!
# Walks through a suite

A walk is made of visits. What every visit keeps, a whole walk keeps, and what every visit
shows of a finding holds of all findings, also of those before an error.
-/

namespace SuiteRunner.Discovery

open Config Files

variable {setting : Setting} {directory inner : Directory} {name : String}
  {progress after : Progress}

/-! ### Visits -/

theorem loadTest_path (tree : FileTree) (path relative : Path) (config : EffectiveConfig) :
    (loadTest tree path relative config).path = path := by
  unfold loadTest
  split <;> rfl

theorem loadTest_relative (tree : FileTree) (path relative : Path) (config : EffectiveConfig) :
    (loadTest tree path relative config).relative = relative := by
  unfold loadTest
  split <;> rfl

theorem loadTest_config (tree : FileTree) (path relative : Path) (config : EffectiveConfig) :
    (loadTest tree path relative config).config = config := by
  unfold loadTest
  split <;> rfl

theorem visit_eq_found_iff {test : TestCase} :
    setting.visit directory name progress = .found test ↔
      ∃ relative, (directory.path.child name).relativeTo? setting.root = some relative ∧
        setting.tree.isDirectory (directory.path.child name) = false ∧
        setting.isTest directory.config (directory.path.child name) relative name = true ∧
        test = loadTest setting.tree (directory.path.child name) relative directory.config := by
  constructor
  -- Of all branches of a visit one finds a test: the name is below the root, no directory, and is
  -- taken for a test.
  · intro visited
    unfold Setting.visit at visited
    dsimp only at visited
    split at visited
    next => cases visited
    next relative below =>
      split at visited
      next =>
        split at visited
        next => cases visited
        next =>
          split at visited
          next => cases visited
          next => split at visited <;> cases visited
      next noDirectory =>
        split at visited
        next isTest =>
          cases visited
          exact ⟨relative, below, Bool.not_eq_true _ ▸ noDirectory, isTest, rfl⟩
        next => cases visited
  · rintro ⟨relative, below, noDirectory, isTest, rfl⟩
    simp only [Setting.visit, below, noDirectory, isTest, Bool.false_eq_true, if_false, if_true]

/-- What a visit comes to by opening a directory. -/
def Visit.ofOpening (key : Path) (visited : List Path) :
    Except Config.Error (Directory × Cascade) → Visit
  | .error error => .failed error
  | .ok (inner, cascade) => .opened inner ⟨cascade, key :: visited⟩

/-- A directory that nothing keeps out is opened. -/
theorem visit_of_isDirectory {relative : Path}
    (below : (directory.path.child name).relativeTo? setting.root = some relative)
    (isDirectory : setting.tree.isDirectory (directory.path.child name) = true)
    (included : directory.config.isExcluded relative = false)
    (reached : setting.selection.reaches (directory.path.child name) = true)
    (unmet : progress.visited.any
      (Path.same (setting.tree.key (directory.path.child name))) = false) :
    setting.visit directory name progress =
      .ofOpening (setting.tree.key (directory.path.child name)) progress.visited
        (openDirectory setting.tree (directory.path.child name) directory.scope directory.config
          progress.cascade) := by
  simp only [Setting.visit, below, isDirectory, included, reached, unmet, Bool.not_true,
    Bool.or_false, Bool.false_eq_true, if_false, if_true]
  split
  next error failed => rw [failed, Visit.ofOpening]
  next inner cascade opened => rw [opened, Visit.ofOpening]

theorem visit_eq_failed_iff {error : Config.Error} :
    setting.visit directory name progress = .failed error ↔
      ∃ relative, (directory.path.child name).relativeTo? setting.root = some relative ∧
        setting.tree.isDirectory (directory.path.child name) = true ∧
        directory.config.isExcluded relative = false ∧
        setting.selection.reaches (directory.path.child name) = true ∧
        progress.visited.any (Path.same (setting.tree.key (directory.path.child name))) = false ∧
        openDirectory setting.tree (directory.path.child name) directory.scope directory.config
          progress.cascade = .error error := by
  constructor
  -- Only a directory that is to be entered can fail.
  · intro visited
    unfold Setting.visit at visited
    dsimp only at visited
    split at visited
    next => cases visited
    next relative below =>
      split at visited
      next isDirectory =>
        split at visited
        next => cases visited
        next allowed =>
          split at visited
          next => cases visited
          next unmet =>
            split at visited
            next opened =>
              cases visited
              simp only [Bool.or_eq_true, Bool.not_eq_true', not_or, Bool.not_eq_true,
                Bool.not_eq_false] at allowed unmet
              exact ⟨relative, below, isDirectory, allowed.1, allowed.2, unmet, opened⟩
            next => cases visited
      next => split at visited <;> cases visited
  · rintro ⟨relative, below, isDirectory, included, reached, unmet, opened⟩
    rw [visit_of_isDirectory below isDirectory included reached unmet, opened, Visit.ofOpening]

/-- A test that lies below the root under some names. -/
def TestCase.LiesAt (test : TestCase) (root : Path) (names : List String) : Prop :=
  test.path = root.descend names ∧ test.relative = ⟨"/".intercalate names⟩

/-- A test that is found in a directory lies there under its name and has the configuration of the
directory. -/
theorem visit_found_liesAt {above : List String} {test : TestCase}
    (path : directory.path = setting.root.descend above) (valid : IsPlace above)
    (named : IsName name) (visited : setting.visit directory name progress = .found test) :
    test.LiesAt setting.root (above ++ [name]) ∧ test.config = directory.config ∧
      setting.tree.isDirectory test.path = false ∧
      setting.isTest test.config test.path test.relative name = true := by
  obtain ⟨relative, below, noDirectory, isTest, rfl⟩ := visit_eq_found_iff.mp visited
  have lies : directory.path.child name = setting.root.descend (above ++ [name]) := by
    rw [Path.descend_concat, path]
  rw [lies, Path.relativeTo?_descend _ (isPlace_append valid named)] at below
  cases below
  rw [TestCase.LiesAt, loadTest_path, loadTest_relative, loadTest_config]
  exact ⟨⟨lies, rfl⟩, rfl, noDirectory, isTest⟩

theorem Directory.Canonical.leads_child (canonical : directory.Canonical setting.tree)
    (plain : setting.tree.Plain) (named : IsName name)
    (isDirectory : setting.tree.isDirectory (directory.path.child name) = true) :
    ∃ place, setting.tree.Leads (directory.path.child name) place := by
  obtain ⟨place, leads⟩ := canonical.leads
  have found := FileTree.isDirectory_iff.mp isDirectory
  exact ⟨_, (leads.child plain named found).1⟩

theorem visit_eq_opened_iff (setting : Setting) (plain : setting.tree.Plain)
    (canonical : directory.Canonical setting.tree) (named : IsName name) :
    setting.visit directory name progress = .opened inner after ↔
      ∃ relative cascade, (directory.path.child name).relativeTo? setting.root = some relative ∧
        setting.tree.isDirectory (directory.path.child name) = true ∧
        directory.config.isExcluded relative = false ∧
        setting.selection.reaches (directory.path.child name) = true ∧
        progress.visited.any (Path.same (directory.path.child name)) = false ∧
        openDirectory setting.tree (directory.path.child name) directory.scope directory.config
          progress.cascade = .ok (inner, cascade) ∧
        after = ⟨cascade, directory.path.child name :: progress.visited⟩ := by
  -- Without links a directory is visited under the path by which it was come across.
  have key (isDirectory : setting.tree.isDirectory (directory.path.child name) = true) :
      setting.tree.key (directory.path.child name) = directory.path.child name := by
    obtain ⟨place, leads⟩ := canonical.leads_child plain named isDirectory
    exact leads.key
  constructor
  · intro visited
    obtain ⟨relative, cascade, below, isDirectory, included, reached, unmet, opened, rfl⟩ :=
      visit_opened visited
    rw [key isDirectory] at unmet ⊢
    exact ⟨relative, cascade, below, isDirectory, included, reached, unmet, opened, rfl⟩
  · rintro ⟨relative, cascade, below, isDirectory, included, reached, unmet, opened, rfl⟩
    simp only [Setting.visit, below, isDirectory, key isDirectory, included, reached, unmet, opened,
      Bool.not_true, Bool.or_false, Bool.false_eq_true, if_false, if_true]

theorem visit_opened_path (visited : setting.visit directory name progress = .opened inner after) :
    inner.path = directory.path.child name := by
  obtain ⟨relative, cascade, -, -, -, -, -, opened, -⟩ := visit_opened visited
  exact openDirectory_path opened

theorem visit_eq_skipped_iff (setting : Setting) (plain : setting.tree.Plain)
    (canonical : directory.Canonical setting.tree) (named : IsName name) :
    setting.visit directory name progress = .skipped ↔
      ∀ relative, (directory.path.child name).relativeTo? setting.root = some relative →
        (setting.tree.isDirectory (directory.path.child name) = true →
          directory.config.isExcluded relative = true ∨
            setting.selection.reaches (directory.path.child name) = false ∨
            progress.visited.any (Path.same (directory.path.child name)) = true) ∧
        (setting.tree.isDirectory (directory.path.child name) = false →
          setting.isTest directory.config (directory.path.child name) relative name = false) := by
  unfold Setting.visit
  dsimp only
  split
  next missing => simp [missing]
  next relative below =>
    simp only [below, Option.some.injEq, forall_eq']
    split
    next isDirectory =>
      obtain ⟨place, leads⟩ := canonical.leads_child plain named isDirectory
      rw [leads.key]
      simp only [isDirectory, Bool.true_eq_false, forall_const, false_implies, and_true]
      -- A directory is left out because it is excluded, not reached, or has been visited; otherwise
      -- it is opened or fails.
      split
      next left =>
        simp only [Bool.or_eq_true, Bool.not_eq_true'] at left
        exact iff_of_true rfl (left.imp_right Or.inl)
      next allowed =>
        simp only [Bool.or_eq_true, Bool.not_eq_true', not_or] at allowed
        split
        next met => exact iff_of_true rfl (Or.inr (Or.inr met))
        next unmet =>
          refine iff_of_false ?_ (by simp [allowed, unmet])
          split <;> simp
    next noDirectory =>
      simp only [noDirectory, forall_const]
      split
      next isTest => simp [isTest]
      next noTest => simpa using noTest

/-! ### Parts of a walk -/

/-- What a part of a walk comes across, and how it ends. -/
abbrev Part : Type := List Finding × Except Config.Error Progress

/-- Go on behind a part of a walk, unless it has ended the walk. -/
def Part.andThen (first : Part) (rest : Progress → Part) : Part :=
  match first with
  | (findings, .error error) => (findings, .error error)
  | (findings, .ok progress) => (findings ++ (rest progress).1, (rest progress).2)

/-- The part of a walk that one entry of a directory stands for. -/
def walkEntry (setting : Setting) (enter : Directory → Progress → Part) (directory : Directory)
    (name : String) (progress : Progress) : Part :=
  match setting.visit directory name progress with
  | .skipped => ([], .ok progress)
  | .found test => ([.test test], .ok progress)
  | .failed error => ([], .error error)
  | .opened inner progress => Part.andThen ([.directory inner], .ok progress) (enter inner)

theorem walkEntries_cons (setting : Setting) (enter : Directory → Progress → Part)
    (directory : Directory) (name : String) (names : List String) (progress : Progress) :
    walkEntries setting enter directory (name :: names) progress =
      (walkEntry setting enter directory name progress).andThen
        (walkEntries setting enter directory names) := by
  rw [walkEntries, walkEntry]
  cases setting.visit directory name progress with
  | skipped => rfl
  | found test => rfl
  | failed error => rfl
  | opened inner progress =>
    dsimp only [Part.andThen]
    cases enter inner progress with
    | mk findings outcome => cases outcome <;> rfl

theorem Part.andThen_eq_ok_iff {first : Part} {rest : Progress → Part} {findings : List Finding} :
    first.andThen rest = (findings, .ok after) ↔
      ∃ inside between more, first = (inside, .ok between) ∧ rest between = (more, .ok after) ∧
        findings = inside ++ more := by
  rcases first with ⟨inside, error | between⟩
  · simp [andThen]
  · simp only [andThen, Prod.mk.injEq, Except.ok.injEq]
    constructor
    · rintro ⟨rfl, ended⟩
      exact ⟨inside, between, _, ⟨rfl, rfl⟩, Prod.ext rfl ended, rfl⟩
    · rintro ⟨_, _, more, ⟨rfl, rfl⟩, went, rfl⟩
      rw [went]
      exact ⟨rfl, rfl⟩

/-! ### What visits keep -/

section Keeps

variable {good : Progress → Prop} {fits : Directory → Prop} {shown : Finding → Prop}
  {enter : Directory → Progress → Part}

/-- What holds after a visit. -/
def Visit.Keeps (good : Progress → Prop) (fits : Directory → Prop) (shown : Finding → Prop) :
    Visit → Prop
  | .skipped | .failed _ => True
  | .found test => shown (.test test)
  | .opened inner progress => shown (.directory inner) ∧ fits inner ∧ good progress

/-- What holds after a part of a walk. -/
def Part.Keeps (good : Progress → Prop) (shown : Finding → Prop) (part : Part) : Prop :=
  (∀ finding ∈ part.1, shown finding) ∧ ∀ progress, part.2 = .ok progress → good progress

theorem Part.Keeps.of_ok {findings : List Finding} (showns : ∀ finding ∈ findings, shown finding)
    (initial : good progress) : Part.Keeps good shown (findings, .ok progress) :=
  ⟨showns, fun _ same => by cases same; exact initial⟩

theorem Part.Keeps.of_error {findings : List Finding}
    (showns : ∀ finding ∈ findings, shown finding) (error : Config.Error) :
    Part.Keeps good shown (findings, .error error) :=
  ⟨showns, fun _ same => by cases same⟩

theorem Part.Keeps.mono {part : Part} {between : Progress → Prop}
    (kept : part.Keeps between shown) (weaker : ∀ progress, between progress → good progress) :
    part.Keeps good shown :=
  ⟨kept.1, fun progress ended => weaker progress (kept.2 progress ended)⟩

theorem Part.Keeps.andThen {first : Part} {rest : Progress → Part} {between : Progress → Prop}
    (kept : first.Keeps between shown)
    (further : ∀ progress, between progress → (rest progress).Keeps good shown) :
    (first.andThen rest).Keeps good shown := by
  rcases first with ⟨inside, error | progress⟩
  · exact .of_error kept.1 error
  · obtain ⟨showns, goods⟩ := further progress (kept.2 progress rfl)
    refine ⟨?_, goods⟩
    intro finding member
    rcases List.mem_append.mp member with member | member
    · exact kept.1 finding member
    · exact showns finding member

theorem walkEntry_keeps
    (visits : ∀ progress, good progress →
      (setting.visit directory name progress).Keeps good fits shown)
    (enters : ∀ inner progress, fits inner → good progress →
      (enter inner progress).Keeps good shown)
    (initial : good progress) :
    (walkEntry setting enter directory name progress).Keeps good shown := by
  have kept := visits progress initial
  rw [walkEntry]
  split
  next => exact .of_ok (List.forall_mem_nil _) initial
  next test found =>
    rw [found] at kept
    exact .of_ok (List.forall_mem_singleton.mpr kept) initial
  next error _ => exact .of_error (List.forall_mem_nil _) error
  next inner progress' opened =>
    rw [opened] at kept
    obtain ⟨here, fit, good⟩ := kept
    exact (Part.Keeps.of_ok (List.forall_mem_singleton.mpr here) good).andThen
      fun progress => enters inner progress fit

theorem walkEntries_keeps
    (visits : ∀ name ∈ directory.names, ∀ progress, good progress →
      (setting.visit directory name progress).Keeps good fits shown)
    (enters : ∀ inner progress, fits inner → good progress →
      (enter inner progress).Keeps good shown)
    {names : List String} (listed : ∀ name ∈ names, name ∈ directory.names)
    (initial : good progress) :
    Part.Keeps good shown (walkEntries setting enter directory names progress) := by
  induction names generalizing progress with
  | nil => exact .of_ok (List.forall_mem_nil _) initial
  | cons name names ih =>
    have first := walkEntry_keeps (visits name (listed name List.mem_cons_self)) enters initial
    rw [walkEntries_cons]
    exact first.andThen fun progress =>
      ih fun other member => listed other (List.mem_cons_of_mem _ member)

/-- What every visit keeps, a whole walk keeps. -/
theorem walkDirectory_keeps (good : Progress → Prop) (fits : Directory → Prop)
    (shown : Finding → Prop) {depth : Nat}
    (visits : ∀ directory, fits directory → ∀ name ∈ directory.names, ∀ progress, good progress →
      (setting.visit directory name progress).Keeps good fits shown)
    (fit : fits directory) (initial : good progress) :
    Part.Keeps good shown (walkDirectory setting depth directory progress) := by
  -- The depth bounds the nesting: the directories below are walked through with one less.
  induction depth generalizing directory progress with
  | zero => exact .of_ok (List.forall_mem_nil _) initial
  | succ depth ih =>
    rw [walkDirectory]
    exact walkEntries_keeps (visits directory fit) (fun inner progress => ih) (fun _ => id) initial

end Keeps

/-! ### Discoveries -/

variable {tree : FileTree} {cascade : Cascade} {entry : Path} {selection : Selection}
  {tests : List TestCase}

/-- A walk starts by opening the source root. -/
theorem start_eq_ok {directory : Directory} {progress : Progress}
    (started : start tree cascade entry = .ok (directory, progress)) :
    ∃ config after, cascade.resolve entry = .ok config ∧
      directory.path = tree.key config.sourceRoot ∧
      openDirectory tree directory.path entry config cascade = .ok (directory, after) ∧
      progress = ⟨after, [directory.path]⟩ := by
  obtain ⟨config, resolved, started⟩ := bind_eq_ok started
  obtain ⟨⟨⟩, -, started⟩ := bind_eq_ok started
  obtain ⟨⟨directory', after⟩, opened, started⟩ := bind_eq_ok started
  cases started
  have path := openDirectory_path opened
  rw [← path] at opened ⊢
  exact ⟨config, after, resolved, path, opened, rfl⟩

/-- The directories below the source root that a discovery opens. -/
def openedBy (tree : FileTree) (cascade : Cascade) (entry : Path) (selection : Selection) :
    List Directory :=
  match walk tree cascade entry selection with
  | .ok walk => walk.findings.filterMap Finding.directory?
  | .error _ => []

/-- The walk below a source root. -/
def walkBelow (tree : FileTree) (selection : Selection) (directory : Directory)
    (progress : Progress) : List Finding × Except Config.Error Progress :=
  walkDirectory { tree, root := directory.path, selection } (tree.entries.length + 2) directory
    progress

theorem discover_eq_ok_iff :
    discover tree cascade entry selection = .ok tests ↔
      ∃ directory progress findings after, start tree cascade entry = .ok (directory, progress) ∧
        walkBelow tree selection directory progress = (findings, .ok after) ∧
        tests = findings.filterMap Finding.test? := by
  unfold discover walk walkBelow
  constructor
  · intro discovered
    obtain ⟨walk, walked, discovered⟩ := bind_eq_ok discovered
    obtain ⟨⟨directory, progress⟩, started, walked⟩ := bind_eq_ok walked
    dsimp only at walked
    split at walked
    next findings after ended =>
      cases walked
      cases discovered
      exact ⟨directory, progress, findings, after, started, ended, rfl⟩
    next =>
      cases walked
      cases discovered
  · rintro ⟨directory, progress, findings, after, started, ended, rfl⟩
    simp only [started, ended, bind, Except.bind]
    rfl

/-- A walk that starts finds what is below the source root, and ends with the error there. -/
theorem walk_of_start (selection : Selection) {directory : Directory} {progress : Progress}
    (started : start tree cascade entry = .ok (directory, progress)) :
    ∃ walk, Discovery.walk tree cascade entry selection = .ok walk ∧
      walk.findings = (walkBelow tree selection directory progress).1 ∧
      ∀ error, walk.problem = some error ↔
        (walkBelow tree selection directory progress).2 = .error error := by
  unfold Discovery.walk
  simp only [started, bind, Except.bind]
  rw [← walkBelow]
  rcases walkBelow tree selection directory progress with ⟨findings, error | after⟩
  · exact ⟨⟨findings, some error⟩, rfl, rfl, fun other => by simp⟩
  · exact ⟨⟨findings, none⟩, rfl, rfl, fun other => by simp⟩

theorem walk_eq_ok {walk : Walk} (walked : Discovery.walk tree cascade entry selection = .ok walk) :
    ∃ directory progress, start tree cascade entry = .ok (directory, progress) ∧
      walk.findings = (walkBelow tree selection directory progress).1 := by
  obtain ⟨⟨directory, progress⟩, started, -⟩ := bind_eq_ok walked
  obtain ⟨walk', walked', findings, -⟩ := walk_of_start selection started
  cases walked.symm.trans walked'
  exact ⟨directory, progress, started, findings⟩

theorem mem_tests {findings : List Finding} {test : TestCase} :
    test ∈ findings.filterMap Finding.test? ↔ .test test ∈ findings := by
  rw [List.mem_filterMap]
  constructor
  · rintro ⟨finding, member, found⟩
    cases finding with
    | directory opened => cases found
    | test found' => exact Option.some.inj found ▸ member
  · exact fun member => ⟨_, member, rfl⟩

theorem openedBy_of_start {directory : Directory} {progress : Progress}
    (started : start tree cascade entry = .ok (directory, progress)) :
    openedBy tree cascade entry selection =
      (walkBelow tree selection directory progress).1.filterMap Finding.directory? := by
  obtain ⟨walk, walked, findings, -⟩ := walk_of_start selection started
  rw [openedBy, walked]
  exact congrArg (List.filterMap Finding.directory?) findings

end SuiteRunner.Discovery
