import SuiteRunner.Proofs.Discovery.Inheriting
import SuiteRunner.Proofs.Discovery.Order
import SuiteRunner.Proofs.Discovery.TwoWalks
import SuiteRunner.Proofs.Files.Standing

/-!
# Selecting one test

A test that was found in a whole suite can be selected by its path. The walk for that test
alone opens the directories above it and nothing else, so it may load layers differently; and
it knows the test by its identity, while it meets it under the path that leads there. It finds
exactly the test if the path of the test has no other identity and the directories open as
they should. The latter is certain as long as local layers name no parents.
-/

namespace SuiteRunner.Discovery

open Config Files

/-! ### The straight way -/

/-- From a directory the names lead to a file through directories that are opened one after
the other, with nothing else opened in between, and none of them excludes what comes next. -/
inductive Straight (tree : FileTree) (root : Path) : Directory → Cascade → List String → Prop where
  | file {directory : Directory} {cascade : Cascade} {name : String} {relative : Path}
      (below : (directory.path.child name).relativeTo? root = some relative)
      (included : directory.config.isExcluded relative = false) :
      Straight tree root directory cascade [name]
  | directory {directory inner : Directory} {cascade after : Cascade} {name : String}
      {names : List String} {relative : Path}
      (below : (directory.path.child name).relativeTo? root = some relative)
      (included : directory.config.isExcluded relative = false)
      (opens : openDirectory tree (directory.path.child name) directory.scope directory.config
        cascade = .ok (inner, after))
      (further : Straight tree root inner after names) :
      Straight tree root directory cascade (name :: names)

/-- The names that lead from the source root to a test. -/
def TestCase.way (test : TestCase) : List String :=
  test.relative.components.map Path.Component.text

/-- The straight way from the source root leads to the test. -/
def LeadsStraightTo (tree : FileTree) (cascade : Cascade) (entry : Path) (test : TestCase) : Prop :=
  ∃ root progress, start tree cascade entry = .ok (root, progress) ∧
    Straight tree root.path root progress.cascade test.way

theorem TestCase.way_of_liesAt {test : TestCase} {root : Path} {names : List String}
    (lies : test.LiesAt root names) (valid : IsPlace names) : test.way = names := by
  rw [way, lies.2, Path.components_intercalate valid, List.map_map]
  exact List.map_id names

variable {setting : Setting} {directory inner other : Directory} {progress after own : Progress}
  {name : String} {names above : List String} {test : TestCase} {findings all : List Finding}
  {depth : Nat}

/-! ### How a walk comes to a test -/

/-- A walk through a directory comes to a test: it finds the test among the entries, or inside one
of them, or it has gone through one of them before. All that it comes across is among `all`. -/
inductive Comes (setting : Setting) (all : List Finding) :
    Directory → Progress → List String → TestCase → Prop where
  | found {directory : Directory} {progress : Progress} {name : String} {test : TestCase}
      (listed : name ∈ directory.names)
      (visited : setting.visit directory name progress = .found test) :
      Comes setting all directory progress [name] test
  | inside {directory inner : Directory} {progress after : Progress} {name : String}
      {names : List String} {test : TestCase} (listed : name ∈ directory.names)
      (visited : setting.visit directory name progress = .opened inner after)
      (member : .directory inner ∈ all) (further : Comes setting all inner after names test) :
      Comes setting all directory progress (name :: names) test
  | later {directory : Directory} {progress between : Progress} {name : String}
      {names : List String} {test : TestCase} {found : List Finding} {depth : Nat}
      (passed : walkEntry setting (walkDirectory setting depth) directory name progress =
        (found, .ok between))
      (members : ∀ finding ∈ found, finding ∈ all)
      (further : Comes setting all directory between names test) :
      Comes setting all directory progress names test

theorem Comes.ne_nil (comes : Comes setting all directory progress names test) : names ≠ [] := by
  induction comes with
  | found => exact List.cons_ne_nil _ _
  | inside => exact List.cons_ne_nil _ _
  | later passed members further ih => exact ih

theorem exists_comes_of_walkEntries {rest : List String}
    (inside : ∀ inner progress findings after,
      walkDirectory setting depth inner progress = (findings, .ok after) →
      .test test ∈ findings → (∀ finding ∈ findings, finding ∈ all) →
      ∃ names, Comes setting all inner progress names test)
    (listed : ∀ name ∈ rest, name ∈ directory.names)
    (walked : walkEntries setting (walkDirectory setting depth) directory rest progress =
      (findings, .ok after))
    (member : .test test ∈ findings) (members : ∀ finding ∈ findings, finding ∈ all) :
    ∃ names, Comes setting all directory progress names test := by
  induction rest generalizing progress findings with
  | nil =>
    cases walked
    cases member
  | cons name rest further =>
    have here := listed name List.mem_cons_self
    rw [walkEntries_cons] at walked
    obtain ⟨found, between, more, entered, went, rfl⟩ := Part.andThen_eq_ok_iff.mp walked
    have members' : ∀ finding ∈ found, finding ∈ all := fun finding known =>
      members finding (List.mem_append_left _ known)
    rcases List.mem_append.mp member with first | behind
    -- The test is found at the first of the names.
    · rw [walkEntry] at entered
      split at entered
      next =>
        cases entered
        cases first
      next test' visited =>
        cases entered
        cases List.mem_singleton.mp first
        exact ⟨[name], .found here visited⟩
      next => cases entered
      next inner progress' visited =>
        obtain ⟨_, _, deeper, single, went', rfl⟩ := Part.andThen_eq_ok_iff.mp entered
        cases single
        have first' : .test test ∈ deeper := by simpa using first
        obtain ⟨names, comes⟩ := inside _ _ _ _ went' first' fun finding known =>
          members' finding (List.mem_append_right _ known)
        exact ⟨name :: names, .inside here visited
          (members' _ (List.mem_append_left _ List.mem_cons_self)) comes⟩
    · obtain ⟨names, comes⟩ := further
        (fun other known => listed other (List.mem_cons_of_mem _ known)) went behind
        fun finding known => members finding (List.mem_append_right _ known)
      exact ⟨names, .later entered members' comes⟩

/-- Every test among the findings of a walk is one that the walk comes to. -/
theorem exists_comes (walked : walkDirectory setting depth directory progress =
      (findings, .ok after))
    (member : .test test ∈ findings) (members : ∀ finding ∈ findings, finding ∈ all) :
    ∃ names, Comes setting all directory progress names test := by
  induction depth generalizing directory progress after findings with
  | zero =>
    cases walked
    cases member
  | succ depth ih =>
    exact exists_comes_of_walkEntries (fun _ _ _ _ => ih) (fun _ => id) walked member members

/-- A test lies under the names by which the walk comes to it, and is no directory. -/
theorem Comes.liesAt (named : setting.tree.Named) (sorted : directory.Sorted setting.root above)
    (comes : Comes setting all directory progress names test) :
    IsPlace (above ++ names) ∧ test.LiesAt setting.root (above ++ names) ∧
      setting.tree.isDirectory test.path = false := by
  induction comes generalizing above with
  | found listed visited =>
    have isName := sorted.named _ listed
    obtain ⟨lies, -, noDirectory, -⟩ :=
      visit_found_liesAt sorted.path sorted.valid isName visited
    exact ⟨isPlace_append sorted.valid isName, lies, noDirectory⟩
  | inside listed visited member further ih =>
    rw [List.append_cons]
    exact ih (visit_opened_sorted named sorted (sorted.named _ listed) visited)
  | later passed members further ih => exact ih sorted

/-- If no local layer names a parent, the straight way leads to the test: the walk that comes to
it opens the same directories alike, whatever else it opens. -/
theorem Comes.straight {chain : List Layer} {cascade : Cascade}
    (comes : Comes setting all directory progress names test) (inherit : Inherit setting.tree all)
    (followed : progress.cascade.chain directory.scope = .ok chain)
    (followed' : cascade.chain directory.scope = .ok chain) :
    Straight setting.tree setting.root directory cascade names := by
  -- By induction on how the walk comes to the test. What it opens before, in the same listing,
  -- keeps the chain, so the entries passed by leave the claim about the directory as it is.
  induction comes generalizing chain cascade with
  | found listed visited =>
    obtain ⟨relative, below, -, isTest, -⟩ := visit_eq_found_iff.mp visited
    have included := isTest
    simp only [Setting.isTest, Bool.and_eq_true, Bool.not_eq_true'] at included
    exact .file below included.1.1.2
  | inside listed visited member further ih =>
    obtain ⟨relative, after, below, -, included, -, -, opened, rfl⟩ := visit_opened visited
    have around := inherit _ member
    rw [openDirectory_path opened] at around
    obtain ⟨own, front, -, alike⟩ := openDirectory_inherits around followed opened
    obtain ⟨after', opened', front'⟩ := alike _ followed'
    exact .directory below included opened' (ih front front')
  | later passed members further ih =>
    have kept := walkEntry_keeps_chain
      (fun _ _ _ _ _ inherit walked => walkDirectory_keeps_chain inherit walked)
      (inherit.of_subset members) passed followed
    exact ih kept followed'

/-! ### The walk for one test -/

theorem visit_keeps_visited (known : List Path) (progress : Progress)
    (within : known ⊆ progress.visited) :
    (setting.visit directory name progress).Keeps (known ⊆ ·.visited) (fun _ => True)
      fun _ => True := by
  cases visited : setting.visit directory name progress with
  | opened inner after =>
    obtain ⟨relative, cascade, -, -, -, -, -, -, rfl⟩ := visit_opened visited
    exact ⟨trivial, trivial, List.subset_cons_of_subset _ within⟩
  | _ => trivial

/-- What was visited stays visited. -/
theorem walkEntry_keeps_visited {between : Progress} {found : List Finding}
    (entered : walkEntry setting (walkDirectory setting depth) directory name progress =
      (found, .ok between)) : progress.visited ⊆ between.visited := by
  have kept : (walkEntry setting (walkDirectory setting depth) directory name progress).Keeps
      (progress.visited ⊆ ·.visited) fun _ => True :=
    walkEntry_keeps (visit_keeps_visited _) (fun _ _ _ =>
      walkDirectory_keeps _ (fun _ => True) _ (fun _ _ _ _ => visit_keeps_visited _) trivial)
      fun _ => id
  exact kept.2 between (congrArg Prod.snd entered)

theorem visit_of_excluded {relative : Path}
    (below : (directory.path.child name).relativeTo? setting.root = some relative)
    (isDirectory : setting.tree.isDirectory (directory.path.child name) = true)
    (excluded : directory.config.isExcluded relative = true) :
    setting.visit directory name progress = .skipped := by
  simp only [Setting.visit, below, isDirectory, excluded, Bool.true_or, if_true]

theorem visit_of_file (progress : Progress) {relative : Path}
    (below : (directory.path.child name).relativeTo? setting.root = some relative)
    (noDirectory : setting.tree.isDirectory (directory.path.child name) = false) :
    setting.visit directory name progress =
      if setting.isTest directory.config (directory.path.child name) relative name then
        .found (loadTest setting.tree (directory.path.child name) relative directory.config)
      else .skipped := by
  simp only [Setting.visit, below, noDirectory, Bool.false_eq_true, if_false]

theorem walkEntries_of_single {enter : Directory → Progress → Part}
    (distinct : names.Nodup) (member : name ∈ names)
    (skipped : ∀ other, other ∈ names → other ≠ name → ∀ progress,
      setting.visit directory other progress = .skipped) :
    walkEntries setting enter directory names progress =
      walkEntry setting enter directory name progress := by
  induction names generalizing progress with
  | nil => cases member
  | cons first names ih =>
    obtain ⟨absent, distinct⟩ := List.nodup_cons.mp distinct
    rw [walkEntries_cons]
    rcases List.mem_cons.mp member with rfl | member
    -- What comes behind the entry is passed over.
    · have rest : walkEntries setting enter directory names =
          fun progress => ([], .ok progress) := by
        funext progress
        refine walkEntries_of_skipped fun other later => ?_
        exact skipped other (List.mem_cons_of_mem _ later)
          (ne_of_mem_of_not_mem later absent) progress
      rw [rest, Part.andThen_done]
    · have passed : walkEntry setting enter directory first progress = ([], .ok progress) := by
        rw [walkEntry, skipped first List.mem_cons_self
          (ne_of_mem_of_not_mem member absent).symm]
      rw [passed, Part.andThen_nil]
      exact ih distinct member fun other later => skipped other (List.mem_cons_of_mem _ later)

theorem Directory.Sorted.components_child (sorted : directory.Sorted setting.root above)
    (isName : IsName name) : (directory.path.child name).components =
      setting.root.components ++ (above ++ [name]).map .name := by
  obtain ⟨place, path⟩ := sorted.child isName
  rw [path, Path.components_descend _ place]

/-- Whether the selection is that of what lies below the source root under some names. -/
def Setting.Selects (setting : Setting) (names : List String) : Prop :=
  ∃ wanted, setting.selection = { paths := [wanted] } ∧
    wanted.components = setting.root.components ++ names.map .name

theorem Setting.Selects.visit_of_other {further : String}
    (selects : setting.Selects (above ++ further :: names))
    (sorted : directory.Sorted setting.root above) (isName : IsName name)
    (different : name ≠ further) (progress : Progress) :
    setting.visit directory name progress = .skipped := by
  obtain ⟨wanted, chosen, spelled⟩ := selects
  have components := sorted.components_child isName
  have unreached : setting.selection.reaches (directory.path.child name) = false := by
    rw [← Bool.not_eq_true, Selection.reaches_iff (by simp [chosen]), chosen]
    simp [spelled, components, List.prefix_append_right_inj, different, different.symm]
  have uncovered : setting.selection.covers (directory.path.child name) = false := by
    rw [← Bool.not_eq_true, Selection.covers_iff (by simp [chosen]), chosen]
    simp [spelled, components, List.prefix_append_right_inj, different.symm]
  simp only [Setting.visit, Setting.isTest, unreached, uncovered, Bool.not_false, Bool.or_true,
    Bool.and_false, Bool.false_and, Bool.false_eq_true, if_true, if_false, ite_self]
  split <;> rfl

theorem Setting.Selects.reaches_child (selects : setting.Selects (above ++ name :: names))
    (sorted : directory.Sorted setting.root above) (isName : IsName name) :
    setting.selection.reaches (directory.path.child name) = true := by
  obtain ⟨wanted, chosen, spelled⟩ := selects
  have components := sorted.components_child isName
  rw [Selection.reaches_iff (by simp [chosen]), chosen]
  simp [spelled, components, List.prefix_append_right_inj]

theorem Setting.Selects.isTest_child (selects : setting.Selects (above ++ [name]))
    (sorted : directory.Sorted setting.root above) (isName : IsName name)
    (config : EffectiveConfig) (relative : Path) :
    setting.isTest config (directory.path.child name) relative name =
      !config.isExcluded relative := by
  obtain ⟨wanted, chosen, spelled⟩ := selects
  have components := sorted.components_child isName
  rw [← spelled] at components
  have covered : setting.selection.covers (directory.path.child name) = true := by
    rw [Selection.covers_iff (by simp [chosen]), chosen]
    exact ⟨wanted, List.mem_singleton_self _, components ▸ List.prefix_refl _⟩
  have meant : setting.selection.namesFile (directory.path.child name) = true := by
    simp [chosen, Selection.namesFile, Path.same_iff, components]
  have accepted (text : String) : setting.selection.acceptsName text = true := by rw [chosen]
  simp only [Setting.isTest, covered, meant, accepted, Bool.true_or, Bool.true_and, Bool.and_true]

/-- A part of a walk finds one test and no other, and it lies at some names below the root. -/
def Part.FindsOnly (part : Part) (root : Path) (names : List String) : Prop :=
  ∃ findings after found, part = (findings, .ok after) ∧
    findings.filterMap Finding.test? = [found] ∧ found.LiesAt root names

namespace Part.FindsOnly

variable {root : Path}

theorem not_nil (progress : Progress) : ¬ FindsOnly ([], .ok progress) root names := by
  rintro ⟨_, _, found, same, single, -⟩
  cases same
  cases single

theorem not_error {error : Config.Error} : ¬ FindsOnly (findings, .error error) root names := by
  rintro ⟨_, _, found, same, -⟩
  cases same

theorem single (lies : test.LiesAt root names) :
    FindsOnly ([.test test], .ok progress) root names := ⟨_, _, test, rfl, rfl, lies⟩

theorem inside_iff {rest : Progress → Part} :
    FindsOnly (Part.andThen ([.directory inner], .ok progress) rest) root names ↔
      (rest progress).FindsOnly root names := by
  rcases ended : rest progress with ⟨findings, outcome⟩
  rw [Part.andThen, ended]
  constructor
  · rintro ⟨_, after, found, same, single, lies⟩
    cases same
    exact ⟨_, after, found, rfl, single, lies⟩
  · rintro ⟨_, after, found, same, single, lies⟩
    cases same
    exact ⟨_, after, found, rfl, single, lies⟩

end Part.FindsOnly

theorem openDirectory_names {tree : FileTree} {path scope scope' : Path}
    {config config' : EffectiveConfig} {cascade cascade' after after' : Cascade}
    {inner inner' : Directory}
    (opened : openDirectory tree path scope config cascade = .ok (inner, after))
    (opened' : openDirectory tree path scope' config' cascade' = .ok (inner', after')) :
    inner'.names = inner.names := by
  obtain ⟨_, _, listing, -, listed, rfl⟩ := openDirectory_eq_ok_iff.mp opened
  obtain ⟨_, _, listing', -, listed', rfl⟩ := openDirectory_eq_ok_iff.mp opened'
  cases listed.symm.trans listed'
  rfl

/-- How far the walk for one test is where a walk through the whole suite opens a directory: it has
opened the same directory, and entered nothing that the other one had not. -/
structure Accompanies (alone setting : Setting) (other : Directory) (own : Progress)
    (directory : Directory) (progress : Progress) : Prop where
  tree : alone.tree = setting.tree
  root : alone.root = setting.root
  path : other.path = directory.path
  names : other.names = directory.names
  visited : own.visited ⊆ progress.visited

variable {alone : Setting}

/-- The walk for a test goes through one entry of a directory. -/
theorem Accompanies.walkDirectory_eq
    (accompanies : Accompanies alone setting other own directory progress)
    (sorted : other.Sorted alone.root above) (selects : alone.Selects (above ++ name :: names))
    (listed : name ∈ directory.names) (enough : (own.ahead alone.tree).length < depth) :
    walkDirectory alone depth other own =
      walkEntry alone (walkDirectory alone depth) other name own := by
  rw [walkDirectory_unroll enough]
  exact walkEntries_of_single (sorted.increasing.imp String.ne_of_lt)
    (accompanies.names ▸ listed) fun further member different =>
      selects.visit_of_other sorted (sorted.named further member) different

/-- The walk for a file finds it unless it is excluded. -/
theorem Accompanies.findsOnly_file_iff
    (accompanies : Accompanies alone setting other own directory progress)
    (sorted : other.Sorted alone.root above) (selects : alone.Selects (above ++ [name]))
    (listed : name ∈ directory.names)
    (visited : setting.visit directory name progress = .found test)
    (enough : (own.ahead alone.tree).length < depth) :
    Part.FindsOnly (walkDirectory alone depth other own) alone.root (above ++ [name]) ↔
      Straight alone.tree alone.root other own.cascade [name] := by
  obtain ⟨relative, below, noDirectory, -⟩ := visit_eq_found_iff.mp visited
  rw [← accompanies.path, ← accompanies.root] at below
  rw [← accompanies.path, ← accompanies.tree] at noDirectory
  -- The walk alone looks at this name only, and the test is there unless the other configuration
  -- excludes it.
  have isName := sorted.named name (accompanies.names ▸ listed)
  have looks := visit_of_file own below noDirectory
  rw [selects.isTest_child sorted isName] at looks
  rw [accompanies.walkDirectory_eq sorted selects listed enough, walkEntry, looks]
  cases included : other.config.isExcluded relative with
  | true =>
    refine iff_of_false (Part.FindsOnly.not_nil own) fun straight => ?_
    cases straight with
    | file below' included' =>
      cases below.symm.trans below'
      cases included.symm.trans included'
    | directory _ _ _ further => cases further
  | false =>
    rw [included] at looks
    have lies := (visit_found_liesAt sorted.path sorted.valid isName looks).1
    exact iff_of_true (Part.FindsOnly.single lies) (.file below included)

theorem straight_cons_iff {tree : FileTree} {root relative : Path} {cascade : Cascade}
    (below : (directory.path.child name).relativeTo? root = some relative) (further : names ≠ []) :
    Straight tree root directory cascade (name :: names) ↔
      directory.config.isExcluded relative = false ∧ ∃ inner after,
        openDirectory tree (directory.path.child name) directory.scope directory.config cascade =
          .ok (inner, after) ∧ Straight tree root inner after names := by
  constructor
  · intro straight
    cases straight with
    | file => exact absurd rfl further
    | directory below' included opens straight =>
      cases below.symm.trans below'
      exact ⟨included, _, _, opens, straight⟩
  · rintro ⟨included, inner, after, opens, straight⟩
    exact .directory below included opens straight

/-- The walk for what is inside a directory opens that as well, unless it is excluded or cannot be
opened, and goes on there. -/
theorem Accompanies.findsOnly_directory_iff (named : alone.tree.Named)
    (accompanies : Accompanies alone setting other own directory progress)
    (sorted : other.Sorted alone.root above) (selects : alone.Selects (above ++ name :: names))
    (listed : name ∈ directory.names) (nonempty : names ≠ [])
    (visited : setting.visit directory name progress = .opened inner after)
    (enough : (own.ahead alone.tree).length < depth)
    (further : ∀ {other own}, Accompanies alone setting other own inner after →
      other.Sorted alone.root (above ++ [name]) → (own.ahead alone.tree).length < depth →
      (Part.FindsOnly (walkDirectory alone depth other own) alone.root (above ++ name :: names) ↔
        Straight alone.tree alone.root other own.cascade names)) :
    Part.FindsOnly (walkDirectory alone depth other own) alone.root (above ++ name :: names) ↔
      Straight alone.tree alone.root other own.cascade (name :: names) := by
  obtain ⟨relative, cascade, below, isDirectory, -, -, unmet, opened, rfl⟩ := visit_opened visited
  rw [← accompanies.path, ← accompanies.root] at below
  rw [← accompanies.path, ← accompanies.tree] at isDirectory unmet opened
  have isName := sorted.named name (accompanies.names ▸ listed)
  -- What the walk alone has visited the whole walk had visited too, and it came in here for the
  -- first time.
  have unmet' : own.visited.any (Path.same (alone.tree.key (other.path.child name))) = false := by
    rw [List.any_eq_false] at unmet ⊢
    exact fun path met => unmet path (accompanies.visited met)
  have reached := selects.reaches_child sorted isName
  rw [accompanies.walkDirectory_eq sorted selects listed enough, walkEntry,
    straight_cons_iff below nonempty]
  cases included : other.config.isExcluded relative with
  | true =>
    rw [visit_of_excluded below isDirectory included]
    refine iff_of_false (Part.FindsOnly.not_nil own) ?_
    rintro ⟨included', -⟩
    cases included'
  | false =>
    have looks := visit_of_isDirectory below isDirectory included reached unmet'
    rw [looks]
    cases opens : openDirectory alone.tree (other.path.child name) other.scope other.config
        own.cascade with
    | error error =>
      refine iff_of_false Part.FindsOnly.not_error ?_
      rintro ⟨-, inner', after', opens', -⟩
      cases opens'
    | ok result =>
      obtain ⟨inner', after'⟩ := result
      rw [opens] at looks
      have accompanies' : Accompanies alone setting inner'
          ⟨after', alone.tree.key (other.path.child name) :: own.visited⟩ inner
          ⟨cascade, setting.tree.key (directory.path.child name) :: progress.visited⟩ :=
        { accompanies with
          path := by rw [openDirectory_path opens, openDirectory_path opened]
          names := openDirectory_names opened opens
          visited := by
            rw [accompanies.path, accompanies.tree]
            exact List.cons_subset_cons _ accompanies.visited }
      have goesOn := further accompanies' (visit_opened_sorted named sorted isName looks)
        (Nat.lt_trans (ahead_lt_of_opened looks) enough)
      refine Part.FindsOnly.inside_iff.trans (goesOn.trans ?_)
      constructor
      · exact fun straight => ⟨rfl, inner', after', rfl, straight⟩
      · rintro ⟨-, _, _, ⟨⟩, straight⟩
        exact straight

/-- The walk for a test that another walk comes to finds exactly that test if and only if the
straight way leads to it. -/
theorem Comes.findsOnly_iff (named : alone.tree.Named)
    (comes : Comes setting all directory progress names test)
    (accompanies : Accompanies alone setting other own directory progress)
    (sorted : other.Sorted alone.root above) (selects : alone.Selects (above ++ names))
    (enough : (own.ahead alone.tree).length < depth) :
    Part.FindsOnly (walkDirectory alone depth other own) alone.root (above ++ names) ↔
      Straight alone.tree alone.root other own.cascade names := by
  induction comes generalizing other own above with
  | found listed visited =>
    exact accompanies.findsOnly_file_iff sorted selects listed visited enough
  | inside listed visited member further ih =>
    refine accompanies.findsOnly_directory_iff named sorted selects listed further.ne_nil visited
      enough fun accompanies' sorted' enough' => ?_
    rw [List.append_cons] at selects ⊢
    exact ih accompanies' sorted' selects enough'
  -- The other walk has gone through more by now, this one has not.
  | later passed members further ih =>
    have visited := List.Subset.trans accompanies.visited (walkEntry_keeps_visited passed)
    exact ih { accompanies with visited } sorted selects enough

/-! ### Discovering one test -/

variable {tree : FileTree} {cascade : Cascade} {entry : Path} {tests : List TestCase}

theorem visit_covers (setting : Setting) (directory : Directory) (name : String)
    (progress : Progress) :
    (setting.visit directory name progress).Keeps (fun _ => True) (fun _ => True)
      fun finding => ∀ test, finding = .test test → setting.selection.covers test.path = true := by
  cases visited : setting.visit directory name progress with
  | skipped => trivial
  | failed error => trivial
  | opened inner after => exact ⟨nofun, trivial, trivial⟩
  | found test =>
    obtain ⟨relative, -, -, isTest, rfl⟩ := visit_eq_found_iff.mp visited
    rintro _ ⟨⟩
    rw [Setting.isTest, Bool.and_eq_true, Bool.and_eq_true] at isTest
    rw [loadTest_path]
    exact isTest.1.2

/-- Every discovered test is covered by the selection. -/
theorem covers_of_discover {selection : Selection}
    (discovered : discover tree cascade entry selection = .ok tests) :
    ∀ test ∈ tests, selection.covers test.path = true := by
  obtain ⟨root, progress, findings, after, -, walked, rfl⟩ := discover_eq_ok_iff.mp discovered
  have kept : Part.Keeps (fun _ => True)
      (fun finding => ∀ test, finding = .test test → selection.covers test.path = true)
      (walkBelow tree selection root progress) :=
    walkDirectory_keeps _ _ _ (fun directory _ name _ progress _ =>
      visit_covers _ directory name progress) trivial trivial
  rw [walked] at kept
  exact fun test member => kept.1 _ (mem_tests.mp member) test rfl

section Root

variable {root : Directory}

theorem leadsStraightTo_iff (started : start tree cascade entry = .ok (root, progress))
    (lies : test.LiesAt root.path names) (valid : IsPlace names) :
    LeadsStraightTo tree cascade entry test ↔
      Straight tree root.path root progress.cascade names := by
  rw [LeadsStraightTo, TestCase.way_of_liesAt lies valid]
  constructor
  · rintro ⟨root', progress', started', straight⟩
    cases started.symm.trans started'
    exact straight
  · exact fun straight => ⟨root, progress, started, straight⟩

/-- A discovery gives a test and no other if and only if the walk below the source root does. -/
theorem discovers_only_iff {selection : Selection}
    (started : start tree cascade entry = .ok (root, progress))
    (lies : test.LiesAt root.path names) :
    (∃ found, discover tree cascade entry selection = .ok [found] ∧ found.path = test.path ∧
        found.relative = test.relative) ↔
      Part.FindsOnly (walkBelow tree selection root progress) root.path names := by
  constructor
  · rintro ⟨found, discovered, path, relative⟩
    obtain ⟨root', progress', findings, after, started', walked, single⟩ :=
      discover_eq_ok_iff.mp discovered
    cases started.symm.trans started'
    exact ⟨findings, after, found, walked, single.symm, path.trans lies.1, relative.trans lies.2⟩
  · rintro ⟨findings, after, found, walked, single, path, relative⟩
    refine ⟨found, ?_, path.trans lies.1.symm, relative.trans lies.2.symm⟩
    exact discover_eq_ok_iff.mpr ⟨root, progress, findings, after, started, walked, single.symm⟩

/-- Below the source root the walk for a test finds exactly that if the path of the test is its
identity and the straight way leads there. -/
theorem Comes.walkBelow_findsOnly_iff (named : tree.Named)
    (comes : Comes { tree, root := root.path, selection := {} } all root progress names test)
    (sorted : root.Sorted root.path [])
    (same : (tree.key test.path).same test.path = true) :
    Part.FindsOnly (walkBelow tree { paths := [tree.key test.path] } root progress) root.path
      names ↔ Straight tree root.path root progress.cascade names := by
  let alone : Setting := { tree, root := root.path, selection := { paths := [tree.key test.path] } }
  -- The whole walk and the walk alone start in the same state, so the one accompanies the other
  -- from here.
  obtain ⟨valid, lies, -⟩ := comes.liesAt named sorted
  have selects : alone.Selects names := by
    refine ⟨_, rfl, ?_⟩
    rw [Path.same_iff.mp same, lies.1, Path.components_descend _ valid]
    rfl
  have accompanies : Accompanies alone { tree, root := root.path, selection := {} } root progress
      root progress := ⟨rfl, rfl, rfl, rfl, List.Subset.refl _⟩
  exact comes.findsOnly_iff named accompanies sorted selects (ahead_lt progress tree)

end Root

/-- A test that a suite has is found alone by its path if and only if the path is its identity and
the straight way leads to the test. It does lead there if no local layer names a parent. -/
theorem discover_alone_iff (named : tree.Named)
    (discovered : discover tree cascade entry {} = .ok tests) (member : test ∈ tests)
    {selection : Selection} (chosen : Selection.ofPaths tree [test.path] none = .ok selection) :
    ((∃ found, discover tree cascade entry selection = .ok [found] ∧ found.path = test.path ∧
        found.relative = test.relative) ↔
      (tree.key test.path).same test.path = true ∧ LeadsStraightTo tree cascade entry test) ∧
    ((∀ directory ∈ openedBy tree cascade entry {},
        inheritsFromAround tree directory.path = true) →
      LeadsStraightTo tree cascade entry test) := by
  obtain ⟨root, progress, findings, after, started, walked, rfl⟩ :=
    discover_eq_ok_iff.mp discovered
  cases chosen
  have sorted := start_sorted named started
  obtain ⟨names, comes⟩ := exists_comes walked (mem_tests.mp member) fun _ => id
  obtain ⟨valid, lies, noDirectory⟩ := comes.liesAt named sorted
  rw [leadsStraightTo_iff started lies valid]
  constructor
  · constructor
    · intro alone
      -- Whatever is found is covered, so the identity is at or above the path of the test.
      have same : (tree.key test.path).same test.path = true := by
        obtain ⟨found, discovered', path, -⟩ := alone
        have covered := covers_of_discover discovered' found (List.mem_singleton_self _)
        rw [Selection.covers_iff (List.cons_ne_nil _ _), path] at covered
        obtain ⟨wanted, single, within⟩ := covered
        cases List.mem_singleton.mp single
        exact FileTree.same_key_of_prefix named noDirectory within
      have finds := (discovers_only_iff started lies).mp alone
      exact ⟨same, (comes.walkBelow_findsOnly_iff named sorted same).mp finds⟩
    · rintro ⟨same, straight⟩
      have finds := (comes.walkBelow_findsOnly_iff named sorted same).mpr straight
      exact (discovers_only_iff started lies).mpr finds
  · intro inherits
    have inherit : Inherit tree findings := by
      intro inner known
      refine inherits inner ?_
      rw [openedBy_of_start started, walked, List.mem_filterMap]
      exact ⟨_, known, rfl⟩
    obtain ⟨config, cascade', resolved, -, opened, rfl⟩ := start_eq_ok started
    obtain ⟨chain, followed, -⟩ := map_eq_ok resolved
    obtain ⟨own, front⟩ := exists_chain_of_openDirectory followed opened
    exact comes.straight inherit front front

/-- A suite with a local layer in which a test has another name. -/
def linkedTree : FileTree where
  entries :=
    [ (["litmus.toml"], .file "suffixes = [\".t\"]\n".toUTF8 false),
      (["real.t"], .file "RUN: true\n".toUTF8 false),
      (["alias.t"], .link "real.t"),
      (["a"], .directory),
      (["a", "litmus.local.toml"], .file .empty false),
      (["a", "b.t"], .file "RUN: true\n".toUTF8 false) ]

def linkedEntry : Path := ⟨"/litmus.toml"⟩

def linkedCascade : Cascade := (({} : Cascade).load linkedTree linkedEntry).1

/-- The tests of the suite that are selected by some paths. -/
def linkedTests (paths : List Path) : Except Config.Error (List TestCase) :=
  discover linkedTree linkedCascade linkedEntry { paths := paths.map linkedTree.key }

theorem linkedTests_paths : (linkedTests []).toOption.map (·.map (·.path)) =
    some [⟨"/a/b.t"⟩, ⟨"/alias.t"⟩, ⟨"/real.t"⟩] := by
  decide +kernel

/-- The test below the local layer is found alone. -/
theorem linked_found_alone :
    ∃ tests test found, linkedTests [] = .ok tests ∧ test ∈ tests ∧ test.path = ⟨"/a/b.t"⟩ ∧
      linkedTests [⟨"/a/b.t"⟩] = .ok [found] ∧ found.path = test.path ∧
      found.relative = test.relative := by
  obtain ⟨tests, discovered, paths⟩ := exists_eq_ok linkedTests_paths
  have listed : (⟨"/a/b.t"⟩ : Path) ∈ tests.map (·.path) := paths ▸ List.mem_cons_self
  obtain ⟨test, member, path⟩ := List.mem_map.mp listed
  have inherit : ∀ directory ∈ openedBy linkedTree linkedCascade linkedEntry {},
      inheritsFromAround linkedTree directory.path = true := by decide +kernel
  have chosen : Selection.ofPaths linkedTree [test.path] none =
      .ok { paths := [linkedTree.key test.path] } := rfl
  obtain ⟨alone_iff, leads⟩ :=
    discover_alone_iff (by decide +kernel) discovered member chosen
  have same : (linkedTree.key test.path).same test.path = true := by
    rw [path]
    decide +kernel
  obtain ⟨found, alone, found_path, relative⟩ := alone_iff.mpr ⟨same, leads inherit⟩
  rw [path] at alone
  exact ⟨tests, test, found, discovered, member, path, alone, found_path, relative⟩

/-- The test that is a link is found in the suite, but its path selects the test it leads to. -/
theorem alias_not_found_alone :
    linkedTree.Named ∧ ∃ tests test, linkedTests [] = .ok tests ∧ test ∈ tests ∧
      test.path = ⟨"/alias.t"⟩ ∧
      ¬ ∃ found, linkedTests [⟨"/alias.t"⟩] = .ok [found] ∧ found.path = test.path ∧
        found.relative = test.relative := by
  have left : (linkedTests [⟨"/alias.t"⟩]).toOption.map (·.map (·.path)) = some [⟨"/real.t"⟩] := by
    decide +kernel
  obtain ⟨tests, discovered, paths⟩ := exists_eq_ok linkedTests_paths
  have listed : (⟨"/alias.t"⟩ : Path) ∈ tests.map (·.path) :=
    paths ▸ List.mem_cons_of_mem _ List.mem_cons_self
  obtain ⟨test, member, path⟩ := List.mem_map.mp listed
  refine ⟨by decide +kernel, tests, test, discovered, member, path, ?_⟩
  rintro ⟨found, alone, found_path, -⟩
  rw [alone] at left
  have other : [found.path] = [⟨"/real.t"⟩] := Option.some.inj left
  rw [found_path, path] at other
  exact absurd other (by decide)

end SuiteRunner.Discovery
