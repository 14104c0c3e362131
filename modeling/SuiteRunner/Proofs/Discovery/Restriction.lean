import SuiteRunner.Proofs.Discovery.TwoWalks

/-!
# Restricting a discovery

A suite is loaded from a tree without links, and all its tests are found. Restricting the
discovery to directories leaves exactly those tests that lie below them, with the same
configurations, if and only if no directory that is still opened inherits through an open
layer of a directory that is left out.
-/

namespace SuiteRunner.Discovery

open Config Files

variable {selection : Selection} {directory inner : Directory} {tree : FileTree}
  {cascade : Cascade} {entry : Path} {tests : List TestCase}

/-! ### Suites -/

/-- A suite that was loaded from a tree without links, and whose source root is there. -/
structure PlainSuite (tree : FileTree) (cascade : Cascade) (entry : Path) : Prop where
  plain : tree.Plain
  spelled : parentsWellSpelled tree = true
  loaded : ∃ file, tree.isFile file = true ∧ tree.isFile (tree.key file) = true ∧
    ({} : Cascade).load tree file = (cascade, .ok entry)
  rooted : ∀ config, cascade.resolve entry = .ok config → tree.isDirectory config.sourceRoot = true

namespace PlainSuite

theorem settled (suite : PlainSuite tree cascade entry) :
    tree.HoldsFile entry ∧ cascade.Settled tree fun _ => none := by
  obtain ⟨file, isFile, again, loaded⟩ := suite.loaded
  obtain ⟨content, executable, found⟩ := FileTree.isFile_iff.mp again
  have holds := FileTree.HoldsFile.of_isFile suite.plain isFile found
  obtain ⟨rfl, settled⟩ := Cascade.settled_of_load suite.plain suite.spelled holds loaded
  exact ⟨holds, settled⟩

/-- A walk starts by opening the source root. -/
theorem started (suite : PlainSuite tree cascade entry) {progress : Progress}
    (started : start tree cascade entry = .ok (directory, progress)) :
    ∃ place config after, tree.Leads directory.path place ∧
      cascade.resolve entry = .ok config ∧
      openDirectory tree directory.path entry config cascade = .ok (directory, after) ∧
      progress = ⟨after, [directory.path]⟩ := by
  obtain ⟨config, after, resolved, path, opened, progress⟩ := start_eq_ok started
  obtain ⟨scope', config', names, -, listed, -⟩ := openDirectory_eq_ok_iff.mp opened
  rw [path] at listed
  obtain ⟨again, isDirectory⟩ := FileTree.exists_find_of_names listed
  obtain ⟨place, leads, -⟩ := FileTree.Leads.of_key suite.plain
    (FileTree.isDirectory_iff.mp (suite.rooted config resolved)) isDirectory
  exact ⟨place, config, after, path ▸ leads, resolved, opened, progress⟩

theorem restrictTo_nowhere (kept : Path → Bool) :
    restrictTo kept (fun _ => none) = fun _ => none := by
  funext scope
  rw [restrictTo, ite_self]

/-- Both walks start from the same opened source root, if it is reached. -/
theorem start_related (suite : PlainSuite tree cascade entry) {progress : Progress}
    (started : start tree cascade entry = .ok (directory, progress))
    (reached : selection.reaches directory.path = true) :
    directory.Canonical tree ∧ Related tree selection.reaches progress progress := by
  obtain ⟨place, config, after, leads, -, opened, rfl⟩ := suite.started started
  obtain ⟨holds, settled⟩ := suite.settled
  obtain ⟨canonical, -, settled'⟩ :=
    openDirectory_settled suite.plain suite.spelled leads settled holds opened
  refine ⟨canonical, ⟨_, settled', ?_⟩, .refl _, fun _ _ => rfl⟩
  rwa [restrictTo_entered leads reached, restrictTo_nowhere]

/-- If the source root is not reached, nothing has been entered yet. -/
theorem start_unrelated (suite : PlainSuite tree cascade entry) {progress : Progress}
    (started : start tree cascade entry = .ok (directory, progress))
    (unreached : selection.reaches directory.path = false) :
    directory.Canonical tree ∧ Related tree selection.reaches progress ⟨cascade, []⟩ := by
  obtain ⟨place, config, after, leads, -, opened, rfl⟩ := suite.started started
  obtain ⟨holds, settled⟩ := suite.settled
  obtain ⟨canonical, grows, settled'⟩ :=
    openDirectory_settled suite.plain suite.spelled leads settled holds opened
  -- The root is not reached, so nothing of it is kept and the restricted walk starts as one that
  -- has gone nowhere.
  refine ⟨canonical, ⟨_, settled', ?_⟩, grows, ?_⟩
  · rwa [restrictTo_entered_of_outside leads unreached, restrictTo_nowhere]
  -- A path that is kept is reached, and the root is not, so it is another path.
  · intro path kept
    have different : path.same directory.path = false := by
      rw [← Bool.not_eq_true]
      intro same
      rw [selection.reaches_congr same, unreached] at kept
      cases kept
    simp [different]

theorem start_entersOnly (suite : PlainSuite tree cascade entry) {progress : Progress}
    (started : start tree cascade entry = .ok (directory, progress))
    (reached : selection.reaches directory.path = true) :
    ClosedIn tree selection.reaches directory.config.chain ∧
      progress.EntersOnly tree selection.reaches := by
  obtain ⟨place, config, after, leads, resolved, opened, rfl⟩ := suite.started started
  obtain ⟨holds, settled⟩ := suite.settled
  obtain ⟨chain, followed, rfl⟩ := map_eq_ok resolved
  have within : ∀ other, entered tree directory.path entry (fun _ => none) other ≠ none →
      selection.reaches (directoryOf other) = true :=
    entered_within leads reached fun _ met => absurd rfl met
  -- Nothing has been met at the start, so what `closedIn` asks for holds of nothing yet.
  have supported : ClosedIn tree selection.reaches (flatten chain).chain :=
    settled.tracks.closedIn (fun _ met => absurd rfl met) followed
  obtain ⟨-, -, settled'⟩ :=
    openDirectory_settled suite.plain suite.spelled leads settled holds opened
  exact ⟨openDirectory_closedIn suite.plain suite.spelled leads settled holds supported within
    opened, _, settled', within⟩

end PlainSuite

/-! ### Selected findings -/

theorem filterMap_filter {α β : Type} {f : α → Option β} {kept : α → Bool} {kept' : β → Bool}
    (agree : ∀ item result, f item = some result → kept item = kept' result) (items : List α) :
    (items.filter kept).filterMap f = (items.filterMap f).filter kept' := by
  rw [List.filterMap_filter, List.filter_filterMap]
  congr 1
  funext item
  cases made : f item with
  | none => simp
  | some result => simp [agree item result made, Option.filter]

theorem tests_filter (selection : Selection) (findings : List Finding) :
    (findings.filter selection.selects).filterMap Finding.test? =
      (findings.filterMap Finding.test?).filter (selection.covers ·.path) := by
  refine filterMap_filter ?_ findings
  rintro (opened | test) _ ⟨⟩
  rfl

theorem directories_filter (selection : Selection) (findings : List Finding) :
    (findings.filter selection.selects).filterMap Finding.directory? =
      (findings.filterMap Finding.directory?).filter (selection.reaches ·.path) := by
  refine filterMap_filter ?_ findings
  rintro (opened | test) _ ⟨⟩
  rfl

theorem mem_directories {findings : List Finding} :
    inner ∈ findings.filterMap Finding.directory? ↔ .directory inner ∈ findings := by
  rw [List.mem_filterMap]
  constructor
  · rintro ⟨finding, member, opened⟩
    cases finding with
    | directory opened' =>
      cases opened
      exact member
    | test test => cases opened
  · exact fun member => ⟨_, member, rfl⟩

/-! ### Restriction -/

/-- If the source root is not reached, nothing is selected. -/
theorem walkBelow_outside (suite : PlainSuite tree cascade entry) (chosen : selection.paths ≠ [])
    {progress : Progress} (started : start tree cascade entry = .ok (directory, progress))
    (unreached : selection.reaches directory.path = false) :
    ∀ finding ∈ (walkBelow tree selection.whole directory progress).1,
      selection.selects finding = false := by
  obtain ⟨canonical, related⟩ := suite.start_unrelated started unreached
  exact (walkDirectory_outside { tree, root := directory.path, selection } suite.plain
    suite.spelled chosen _ canonical unreached related).1

/-- The restricted walk and the whole walk from the source root. -/
theorem walkBelow_follows (suite : PlainSuite tree cascade entry) (chosen : selection.paths ≠ [])
    (directories : selection.ofDirectories tree) {progress after : Progress}
    (started : start tree cascade entry = .ok (directory, progress)) {findings : List Finding}
    (walked : walkBelow tree selection.whole directory progress = (findings, .ok after))
    (supported : Supported tree selection findings) :
    ∃ after', walkBelow tree selection directory progress =
      (findings.filter selection.selects, .ok after') := by
  let setting : Setting := { tree, root := directory.path, selection }
  cases reached : selection.reaches directory.path with
  | true =>
    obtain ⟨canonical, related⟩ := suite.start_related started reached
    obtain ⟨after', walked', -⟩ := walkDirectory_follows setting suite.plain
      suite.spelled chosen directories _ canonical reached related walked supported
    exact ⟨after', walked'⟩
  | false =>
    -- Behind a root that is not reached no test is selected, and every name is skipped.
    obtain ⟨canonical, -⟩ := suite.start_unrelated started reached
    have unselected := walkBelow_outside suite chosen started reached
    rw [walked] at unselected
    have none : findings.filter selection.selects = [] := by simpa using unselected
    refine ⟨progress, ?_⟩
    rw [none]
    exact walkEntries_of_skipped fun name member => visit_of_unreached setting
      suite.plain chosen directories canonical (canonical.named name member) reached _

/-- Restricting a discovery to directories leaves exactly what lies below them, unless an opened
directory inherits through an open layer of a directory that was left out. -/
theorem discover_restricts_iff (suite : PlainSuite tree cascade entry) {paths : List Path}
    {filter : Option String} {whole : Selection} (nonempty : paths ≠ [])
    (existing : ∀ path ∈ paths,
      tree.isDirectory path = true ∧ tree.isDirectory (tree.key path) = true)
    (chosen : Selection.ofPaths tree paths filter = .ok selection)
    (unrestricted : Selection.ofPaths tree [] filter = .ok whole)
    (discovered : discover tree cascade entry whole = .ok tests) :
    discover tree cascade entry selection = .ok (tests.filter (selection.covers ·.path)) ∧
        openedBy tree cascade entry selection =
          (openedBy tree cascade entry whole).filter (selection.reaches ·.path) ↔
      ∀ directory ∈ openedBy tree cascade entry whole,
        selection.reaches directory.path = true →
          ClosedIn tree selection.reaches directory.config.chain := by
  obtain ⟨keys, rfl⟩ := Selection.of_ofPaths chosen unrestricted
  have directories := Selection.ofDirectories_ofPaths suite.plain keys existing
  have selected : selection.paths ≠ [] := by simpa [keys] using nonempty
  obtain ⟨root, progress, findings, after, started, walked, rfl⟩ :=
    discover_eq_ok_iff.mp discovered
  have opened : openedBy tree cascade entry selection.whole =
      findings.filterMap Finding.directory? := by
    rw [openedBy_of_start started, walked]
  rw [opened]
  constructor
  -- Whatever is reached was opened by the restricted walk, which enters nothing else.
  · rintro ⟨-, same⟩ directory member reached
    have member' : directory ∈ openedBy tree cascade entry selection := by
      rw [same]
      exact List.mem_filter.mpr ⟨member, reached⟩
    rw [openedBy_of_start started] at member'
    cases reachedRoot : selection.reaches root.path with
    | true =>
      obtain ⟨canonical, -⟩ := suite.start_related started reachedRoot
      obtain ⟨supported, initial⟩ := suite.start_entersOnly started reachedRoot
      exact walkDirectory_closedIn { tree, root := root.path, selection } suite.plain suite.spelled
        canonical supported initial directory (mem_directories.mp member')
    | false =>
      have unselected := walkBelow_outside suite selected started reachedRoot
      rw [walked] at unselected
      have missed := unselected _ (mem_directories.mp member)
      rw [Selection.selects, reached] at missed
      cases missed
  -- The restricted walk follows the whole walk step by step.
  · intro supported
    obtain ⟨after', walked'⟩ := walkBelow_follows suite selected directories started walked
      fun directory member => supported directory (mem_directories.mpr member)
    constructor
    · exact discover_eq_ok_iff.mpr ⟨root, progress, _, after', started, walked',
        (tests_filter selection findings).symm⟩
    · rw [openedBy_of_start started, walked', directories_filter]

/-! ### A suite in which a directory inherits from its sibling -/

def siblingTree : FileTree where
  entries :=
    [ (["litmus.toml"], .file "suffixes = [\".t\"]\n".toUTF8 false),
      (["a"], .directory),
      (["a", "litmus.local.toml"], .file .empty false),
      (["a", "x.t"], .file "RUN: true\n".toUTF8 false),
      (["z"], .directory),
      (["z", "litmus.local.toml"], .file "parent = \"../a/litmus.local.toml\"\n".toUTF8 false),
      (["z", "y.t"], .file "RUN: true\n".toUTF8 false) ]

def siblingEntry : Path := ⟨"/litmus.toml"⟩

def siblingCascade : Cascade := (({} : Cascade).load siblingTree siblingEntry).1

theorem plainSuite_sibling : PlainSuite siblingTree siblingCascade siblingEntry where
  plain := by decide +kernel
  spelled := by decide +kernel
  loaded := by
    refine ⟨siblingEntry, by decide +kernel, by decide +kernel, ?_⟩
    have ended : (({} : Cascade).load siblingTree siblingEntry).2 = .ok siblingEntry := by
      decide +kernel
    rw [siblingCascade, ← ended]
  rooted := by
    have rooted : (siblingCascade.resolve siblingEntry).toOption.all
        (siblingTree.isDirectory ·.sourceRoot) = true := by decide +kernel
    intro config resolved
    rw [resolved] at rooted
    exact rooted

/-- The selection of one directory of the suite. -/
def only (name : String) : Selection := { paths := [siblingTree.key ⟨name⟩] }

def siblingTests (selection : Selection) : Except Config.Error (List TestCase) :=
  discover siblingTree siblingCascade siblingEntry selection

def siblingDirectories (selection : Selection) : List Directory :=
  openedBy siblingTree siblingCascade siblingEntry selection

theorem siblingTests_paths : (siblingTests {}).toOption.map (·.map (·.path)) =
    some [⟨"/a/x.t"⟩, ⟨"/z/y.t"⟩] := by
  decide +kernel

/-- The sibling that is inherited from is found as before. -/
theorem sibling_restricts :
    ∃ tests, siblingTests {} = .ok tests ∧ tests.map (·.path) = [⟨"/a/x.t"⟩, ⟨"/z/y.t"⟩] ∧
      siblingTests (only "/a") = .ok (tests.filter ((only "/a").covers ·.path)) ∧
      siblingDirectories (only "/a") =
        (siblingDirectories {}).filter ((only "/a").reaches ·.path) := by
  obtain ⟨tests, discovered, paths⟩ := exists_eq_ok siblingTests_paths
  have existing : ∀ path ∈ [(⟨"/a"⟩ : Path)], siblingTree.isDirectory path = true ∧
      siblingTree.isDirectory (siblingTree.key path) = true := by decide +kernel
  have chosen : Selection.ofPaths siblingTree [⟨"/a"⟩] none = .ok (only "/a") := rfl
  have unrestricted : Selection.ofPaths siblingTree [] none = .ok {} := rfl
  have supported : ∀ directory ∈ siblingDirectories {},
      (only "/a").reaches directory.path = true →
        ClosedIn siblingTree (only "/a").reaches directory.config.chain := by decide +kernel
  exact ⟨tests, discovered, paths, (discover_restricts_iff plainSuite_sibling
    (List.cons_ne_nil _ _) existing chosen unrestricted discovered).mpr supported⟩

/-- The heir loses its test: the layer of its sibling is loaded without the layer around it, which
says what a test is called. -/
theorem heir_loses_test :
    siblingTree.Plain ∧ siblingTree.isDirectory ⟨"/z"⟩ = true ∧
      ∃ tests, siblingTests {} = .ok tests ∧
        siblingTests (only "/z") ≠ .ok (tests.filter ((only "/z").covers ·.path)) := by
  have left : (siblingTests (only "/z")).toOption.map (·.map (·.path)) = some [] := by
    decide +kernel
  have covers : [(⟨"/a/x.t"⟩ : Path), ⟨"/z/y.t"⟩].filter (only "/z").covers = [⟨"/z/y.t"⟩] := by
    decide +kernel
  obtain ⟨tests, discovered, paths⟩ := exists_eq_ok siblingTests_paths
  refine ⟨plainSuite_sibling.plain, by decide +kernel, tests, discovered, ?_⟩
  intro same
  rw [same] at left
  have kept : (tests.filter ((only "/z").covers ·.path)).map (·.path) = [] := Option.some.inj left
  have lost : (tests.map (·.path)).filter (only "/z").covers = [] := by
    rw [List.filter_map]
    exact kept
  rw [paths, covers] at lost
  cases lost

end SuiteRunner.Discovery
