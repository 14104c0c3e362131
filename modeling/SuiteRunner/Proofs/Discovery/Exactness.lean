import SuiteRunner.Proofs.Discovery.Layers
import SuiteRunner.Proofs.Discovery.Selection
import SuiteRunner.Proofs.Discovery.Walker

/-!
# What discovery finds

A walk looks at directories with the configuration of the directory around them, and leaves out
those that are excluded there or that the selection does not reach. It loses no test by that: a
directory excludes whatever the directories around it exclude, and a test that is covered lies
in directories that are reached. So the tests are exactly the selected files.
-/

namespace SuiteRunner.Discovery

open Config Files

variable {tree : FileTree} {cascade : Cascade} {entry root path : Path} {layers : List Layer}
  {config : EffectiveConfig} {rootPlace : Place} {names : List String} {name : String}
  {selection : Selection}

/-- What makes a file under some names below the source root a test, where a configuration is in
effect. Excluded are names with the bytes of a listed text; suffixes and filters are for what the
names are shown as. -/
structure IsSelected (selection : Selection) (config : EffectiveConfig) (path : Path)
    (names : List String) (name : String) : Prop where
  visible : ∀ segment ∈ names ++ [name],
    segment.startsWith "." = false ∧ segment ≠ layerFile ∧ segment ≠ localLayerFile
  included : ∀ segment ∈ names ++ [name], segment ∉ config.excludes.map Text.pack
  named : (∃ suffix ∈ config.suffixes, suffix.toList <:+ (Text.shown name).toList) ∨
    ∃ wanted ∈ selection.paths, wanted.same path = true
  covered : selection.paths = [] ∨
    ∃ wanted ∈ selection.paths, wanted.components <+: path.components
  accepted : selection.acceptsName ("/".intercalate ((names ++ [name]).map Text.shown)) = true

/-! ### Tests and their configurations -/

theorem isVisible_iff : isVisible name = true ↔
    name.startsWith "." = false ∧ name ≠ layerFile ∧ name ≠ localLayerFile := by
  simp [isVisible, and_assoc]

theorem isExcluded_eq_false_iff (valid : IsPlace names) :
    config.isExcluded ⟨"/".intercalate names⟩ = false ↔
      ∀ segment ∈ names, segment ∉ config.excludes.map Text.pack := by
  rw [EffectiveConfig.isExcluded, Path.components_intercalate valid, List.any_map,
    List.any_eq_false]
  simp [Path.Component.text]

theorem displayName_intercalate (valid : IsPlace names) :
    displayName ⟨"/".intercalate names⟩ = "/".intercalate (names.map Text.shown) := by
  rw [displayName, Path.components_intercalate valid, List.map_map]
  rfl

theorem covers_eq_true_iff : selection.covers path = true ↔
    selection.paths = [] ∨ ∃ wanted ∈ selection.paths, wanted.components <+: path.components := by
  by_cases none : selection.paths = []
  · simp [Selection.covers, none]
  · rw [Selection.covers_iff none, or_iff_right none]

theorem isTest_iff {setting : Setting} (valid : IsPlace (names ++ [name])) :
    setting.isTest config path ⟨"/".intercalate (names ++ [name])⟩ name = true ∧
        (∀ segment ∈ names ++ [name], isVisible segment = true) ↔
      IsSelected setting.selection config path names name := by
  have named : (setting.selection.namesFile path || config.isTestName (Text.shown name)) = true ↔
      (∃ suffix ∈ config.suffixes, suffix.toList <:+ (Text.shown name).toList) ∨
        ∃ wanted ∈ setting.selection.paths, wanted.same path = true := by
    rw [Bool.or_eq_true, or_comm, EffectiveConfig.isTestName, Selection.namesFile]
    simp only [List.any_eq_true, List.isSuffixOf_iff_suffix]
  rw [Setting.isTest, Bool.and_eq_true, Bool.and_eq_true, Bool.and_eq_true, Bool.not_eq_true',
    named, isExcluded_eq_false_iff valid, covers_eq_true_iff, displayName_intercalate valid]
  simp only [isVisible_iff]
  constructor
  · rintro ⟨⟨⟨⟨named, included⟩, covered⟩, accepted⟩, visible⟩
    exact ⟨visible, included, named, covered, accepted⟩
  · rintro ⟨visible, included, named, covered, accepted⟩
    exact ⟨⟨⟨⟨named, included⟩, covered⟩, accepted⟩, visible⟩

/-! ### Configurations along the way -/

theorem amounts_iff {files : List Path} : Amounts tree layers files config ↔
    ∃ locals, files.mapM (loadLayer tree) = .ok locals ∧ config = flatten (locals ++ layers) := by
  simp only [mapM_eq_ok_iff]
  rfl

theorem Amounts.unique {files : List Path} {config' : EffectiveConfig}
    (amounts : Amounts tree layers files config) (amounts' : Amounts tree layers files config') :
    config = config' := by
  obtain ⟨locals, loaded, rfl⟩ := amounts_iff.mp amounts
  obtain ⟨locals', loaded', rfl⟩ := amounts_iff.mp amounts'
  cases loaded.symm.trans loaded'
  rfl

/-- Further layers in front exclude no less. -/
theorem Amounts.excludes_mono {front files : List Path} {config' : EffectiveConfig}
    (amounts : Amounts tree layers files config)
    (amounts' : Amounts tree layers (front ++ files) config') :
    ∀ item ∈ config.excludes, item ∈ config'.excludes := by
  obtain ⟨locals, loaded, rfl⟩ := amounts_iff.mp amounts
  obtain ⟨locals', loaded', rfl⟩ := amounts_iff.mp amounts'
  rw [List.mapM_append] at loaded'
  obtain ⟨others, -, loaded'⟩ := bind_eq_ok loaded'
  obtain ⟨locals'', again, loaded'⟩ := bind_eq_ok loaded'
  cases loaded.symm.trans again
  cases loaded'
  rw [List.append_assoc]
  exact excludes_flatten_append others (locals ++ layers)

theorem localFiles_append (tree : FileTree) (root : Path) (above more : List String) :
    ∃ front, localFiles tree root (above ++ more) = front ++ localFiles tree root above := by
  induction more using List.reverseRecOn with
  | nil => exact ⟨[], by rw [List.append_nil, List.nil_append]⟩
  | append_singleton more name ih =>
    obtain ⟨front, same⟩ := ih
    rw [← List.append_assoc, localFiles_concat, same, ← List.append_assoc]
    exact ⟨_, rfl⟩

/-! ### The way to a file -/

theorem Below.lists_concat (below : Below tree root (names ++ [name])) :
    Below tree root names ∧
      ∃ listed, tree.names (root.descend names) = .ok listed ∧ name ∈ listed := by
  generalize whole : names ++ [name] = segments at below
  cases below with
  | root => simp at whole
  | entry above lists member =>
    obtain ⟨rfl, same⟩ := List.append_inj' whole rfl
    cases same
    exact ⟨above, _, lists, member⟩

theorem Below.of_append {above more : List String} (below : Below tree root (above ++ more)) :
    Below tree root above := by
  induction more using List.reverseRecOn with
  | nil => rwa [List.append_nil] at below
  | append_singleton more name ih =>
    rw [← List.append_assoc] at below
    exact ih below.lists_concat.1

theorem Below.isDirectory {above more : List String}
    (below : Below tree root (above ++ name :: more)) :
    tree.isDirectory (root.descend above) = true := by
  rw [List.append_cons] at below
  obtain ⟨-, listed, lists, -⟩ := below.of_append.lists_concat
  exact FileTree.isDirectory_of_names lists

theorem Below.isPlace (plain : tree.Plain) (below : Below tree root names) : IsPlace names := by
  induction below with
  | root => exact List.forall_mem_nil _
  | entry above lists member ih =>
    exact isPlace_append ih (plain.named.isName_of_mem_names lists _ member)

/-- Nothing at or below some names has been entered. -/
def Fresh (rootPlace : Place) (names : List String) (progress : Progress) : Prop :=
  ∀ inner, IsPlace inner → names <+: inner →
    progress.visited.any (Path.same (Place.path (rootPlace ++ inner))) = false

section Walk

variable {setting : Setting} {directory inner : Directory} {progress after : Progress}
  {above : List String} {depth : Nat} {findings : List Finding}

/-- What lies below one name stays fresh while a walk goes through another one. -/
theorem Fresh.of_changes {other : String} (different : other ≠ name)
    (fresh : Fresh rootPlace (above ++ [name]) progress)
    (changes : ChangesBelow rootPlace (above ++ [other]) progress after) :
    Fresh rootPlace (above ++ [name]) after := by
  intro inner valid inside
  rw [changes.visited inner valid, fresh inner valid inside]
  intro inside'
  have same := (List.prefix_of_prefix_length_le inside inside' (by simp)).eq_of_length (by simp)
  exact different (List.cons.inj (List.append_cancel_left same)).1.symm

/-- Below a directory that has just been entered everything is fresh. -/
theorem Fresh.inside (valid : IsPlace rootPlace) (fresh : Fresh rootPlace above progress)
    (visited : after.visited = Place.path (rootPlace ++ above) :: progress.visited) :
    Fresh rootPlace (above ++ [name]) after := by
  intro inner valid' inside
  have within : above <+: inner := (List.prefix_append _ _).trans inside
  rw [visited, List.any_cons, fresh inner valid' within, Bool.or_false, ← Bool.not_eq_true]
  intro same
  have equal := Place.eq_of_same_append valid valid' (valid'.of_prefix within) same
  exact not_concat_prefix above name (equal ▸ inside)

/-- Going through an entry of a directory changes things below it only, and leaves no more ahead. -/
theorem walkEntry_changes (suite : NestedSuite setting.tree cascade entry layers)
    (valid : IsPlace rootPlace)
    (fits : directory.Fits setting layers rootPlace above progress.cascade)
    (member : name ∈ directory.names)
    (entered : walkEntry setting (walkDirectory setting depth) directory name progress =
      (findings, .ok after)) :
    ChangesBelow rootPlace (above ++ [name]) progress after ∧
      (after.ahead setting.tree).length ≤ (progress.ahead setting.tree).length := by
  have changes : (walkEntry setting (walkDirectory setting depth) directory name progress).Keeps
      (ChangesBelow rootPlace (above ++ [name]) progress) (FoundIn setting layers rootPlace) :=
    walkEntry_fits suite valid (fun inner progress => walkDirectory_fits suite valid) fits member
  have fewer : (walkEntry setting (walkDirectory setting depth) directory name progress).Keeps
      (fun after => (after.ahead setting.tree).length ≤ (progress.ahead setting.tree).length)
      (fun _ => True) := walkEntry_ahead _ (Nat.le_refl _)
  rw [entered] at changes fewer
  exact ⟨changes.2 after rfl, fewer.2 after rfl⟩

/-- A walk through entries of a directory comes to each of them, when nothing below it has been
entered. -/
theorem walkEntries_comes (suite : NestedSuite setting.tree cascade entry layers)
    (valid : IsPlace rootPlace)
    (fits : directory.Fits setting layers rootPlace above progress.cascade) {listed : List String}
    (inside : ∀ name ∈ listed, name ∈ directory.names) (distinct : listed.Nodup)
    (fresh : ∀ name ∈ listed, Fresh rootPlace (above ++ [name]) progress)
    (ended : walkEntries setting (walkDirectory setting depth) directory listed progress =
      (findings, .ok after))
    (member : name ∈ listed) :
    ∃ between found later, directory.Fits setting layers rootPlace above between.cascade ∧
      Fresh rootPlace (above ++ [name]) between ∧
      (between.ahead setting.tree).length ≤ (progress.ahead setting.tree).length ∧
      walkEntry setting (walkDirectory setting depth) directory name between = (found, .ok later) ∧
      ∀ finding ∈ found, finding ∈ findings := by
  induction listed generalizing progress findings with
  | nil => cases member
  | cons first listed ih =>
    rw [walkEntries_cons] at ended
    obtain ⟨found, between, more, here, rest, rfl⟩ := Part.andThen_eq_ok_iff.mp ended
    obtain ⟨unlisted, distinct⟩ := List.nodup_cons.mp distinct
    rcases List.mem_cons.mp member with rfl | member
    · exact ⟨progress, found, between, fits, fresh name List.mem_cons_self, Nat.le_refl _, here,
        fun finding => List.mem_append_left _⟩
    -- The entry in front of it changes nothing below this one.
    · obtain ⟨changes, fewer⟩ :=
        walkEntry_changes suite valid fits (inside first List.mem_cons_self) here
      have fresh' : ∀ other ∈ listed, Fresh rootPlace (above ++ [other]) between := by
        intro other listed'
        have different : first ≠ other := fun same => unlisted (same ▸ listed')
        exact (fresh other (List.mem_cons_of_mem _ listed')).of_changes different changes
      obtain ⟨between', found', later, fits', unmet, fewer', entered, within⟩ :=
        ih (fits.of_changes suite valid changes)
          (fun other listed' => inside other (List.mem_cons_of_mem _ listed')) distinct fresh' rest
          member
      exact ⟨between', found', later, fits', unmet, fewer'.trans fewer, entered,
        fun finding member => List.mem_append_right _ (within finding member)⟩

/-- What is covered lies in directories that are reached. -/
theorem reaches_descend {more : List String} (place : IsPlace (above ++ more))
    (covered : selection.paths = [] ∨
      ∃ wanted ∈ selection.paths, wanted.components <+: (root.descend (above ++ more)).components) :
    selection.reaches (root.descend above) = true := by
  rcases covered with none | ⟨wanted, listed, within⟩
  · simp [Selection.reaches, none]
  · have place' : IsPlace above := place.of_prefix (List.prefix_append _ _)
    have further : (root.descend above).components <+:
        (root.descend (above ++ more)).components := by
      rw [Path.components_descend _ place, Path.components_descend _ place', List.map_append,
        ← List.append_assoc]
      exact List.prefix_append _ _
    refine (Selection.reaches_iff (List.ne_nil_of_mem listed)).mpr ⟨wanted, listed, ?_⟩
    exact List.prefix_or_prefix_of_prefix further within

/-- The file that a walk is to come to. -/
structure Wanted (setting : Setting) (layers : List Layer) (config : EffectiveConfig)
    (names : List String) (name : String) : Prop where
  below : Below setting.tree setting.root (names ++ [name])
  noDirectory : setting.tree.isDirectory (setting.root.descend (names ++ [name])) = false
  amounts : Amounts setting.tree layers (localFiles setting.tree setting.root names) config
  selected : IsSelected setting.selection config (setting.root.descend (names ++ [name])) names name

theorem Directory.Fits.nodup (fits : directory.Fits setting layers rootPlace above cascade) :
    directory.names.Nodup := by
  obtain ⟨listed, -, shown⟩ := fits.lists
  rw [shown]
  exact (increasing_visibleNames listed).imp String.ne_of_lt

/-- What lies in a directory under a visible name is among its entries. -/
theorem Directory.Fits.mem_names (fits : directory.Fits setting layers rootPlace above cascade)
    (below : Below setting.tree setting.root (above ++ [name])) (visible : isVisible name = true) :
    name ∈ directory.names := by
  obtain ⟨-, listed, lists, member⟩ := below.lists_concat
  obtain ⟨listed', lists', shown⟩ := fits.lists
  rw [fits.path, lists] at lists'
  cases lists'
  rw [shown, mem_visibleNames]
  exact ⟨member, visible⟩

/-- The file is found in its own directory. -/
theorem Wanted.found (plain : setting.tree.Plain) (wanted : Wanted setting layers config names name)
    (fits : directory.Fits setting layers rootPlace names progress.cascade) :
    ∃ test, setting.visit directory name progress = .found test ∧
      test.path = setting.root.descend (names ++ [name]) := by
  have place := wanted.below.isPlace plain
  have lies : directory.path.child name = setting.root.descend (names ++ [name]) := by
    rw [Path.descend_concat, fits.path]
  have config : config = directory.config := wanted.amounts.unique fits.effect.amounts
  have isTest := (isTest_iff place).mpr wanted.selected
  refine ⟨_, visit_eq_found_iff.mpr ⟨⟨"/".intercalate (names ++ [name])⟩, ?_, ?_, ?_, rfl⟩, ?_⟩
  · rw [lies, Path.relativeTo?_descend _ place]
  · rw [lies, wanted.noDirectory]
  · rw [lies, ← config, isTest.1]
  · rw [loadTest_path, lies]

/-- Whatever is found is such a file. -/
theorem FoundIn.wanted (plain : setting.tree.Plain) {test : TestCase}
    (found : FoundIn setting layers rootPlace (.test test)) :
    ∃ names name, test.path = setting.root.descend (names ++ [name]) ∧
      Wanted setting layers test.config names name := by
  obtain ⟨above, directory, name, progress, fits, member, visited⟩ := found test rfl
  have named := fits.isName plain member
  have place := isPlace_append fits.valid named
  obtain ⟨⟨path, relative⟩, config, noDirectory, isTest⟩ :=
    visit_found_liesAt fits.path fits.valid named visited
  obtain ⟨listed, lists, shown⟩ := fits.lists
  rw [shown, mem_visibleNames] at member
  have visible : ∀ segment ∈ above ++ [name], isVisible segment = true :=
    List.forall_mem_append.mpr ⟨fits.visible, List.forall_mem_singleton.mpr member.2⟩
  refine ⟨above, name, path, fits.below.entry (fits.path ▸ lists) member.1, path ▸ noDirectory,
    config ▸ fits.effect.amounts, ?_⟩
  rw [relative] at isTest
  rw [← path]
  exact (isTest_iff place).mp ⟨isTest, visible⟩

/-- A directory on the way to the file is opened, if it can be. -/
theorem Wanted.opened (plain : setting.tree.Plain)
    (wanted : Wanted setting layers config names name) {head : String} {rest : List String}
    (way : names = above ++ head :: rest)
    (fits : directory.Fits setting layers rootPlace above progress.cascade)
    (member : head ∈ directory.names) (fresh : Fresh rootPlace (above ++ [head]) progress) :
    (∃ error, setting.visit directory head progress = .failed error) ∨
      ∃ inner after, setting.visit directory head progress = .opened inner after := by
  have place := wanted.below.isPlace plain
  have whole : names ++ [name] = above ++ [head] ++ (rest ++ [name]) := by simp [way]
  rw [whole] at place
  have place' : IsPlace (above ++ [head]) := place.of_prefix (List.prefix_append _ _)
  have lies : directory.path.child head = setting.root.descend (above ++ [head]) := by
    rw [Path.descend_concat, fits.path]
  have isDirectory : setting.tree.isDirectory (directory.path.child head) = true := by
    obtain ⟨next, more, shape⟩ : ∃ next more, rest ++ [name] = next :: more :=
      List.exists_cons_of_ne_nil (by simp)
    have below := wanted.below
    rw [whole, shape] at below
    rw [lies]
    exact below.isDirectory
  -- Whatever the directory around excludes, the configuration of the file excludes as well.
  have included : directory.config.isExcluded ⟨"/".intercalate (above ++ [head])⟩ = false := by
    obtain ⟨front, files⟩ := localFiles_append setting.tree setting.root above (head :: rest)
    have amounts' := wanted.amounts
    rw [way, files] at amounts'
    rw [isExcluded_eq_false_iff place']
    intro segment within excluded
    refine wanted.selected.included segment ?_
      (List.map_subset Text.pack (fits.effect.amounts.excludes_mono amounts') excluded)
    rw [whole]
    exact List.mem_append_left _ within
  have reached : setting.selection.reaches (directory.path.child head) = true := by
    have covered := wanted.selected.covered
    rw [whole] at covered
    rw [lies]
    exact reaches_descend place covered
  have unmet : progress.visited.any
      (Path.same (setting.tree.key (directory.path.child head))) = false := by
    rw [(fits.key_child plain member isDirectory).2]
    exact fresh _ place' (List.prefix_refl _)
  have relative := Path.relativeTo?_descend setting.root place'
  rw [← lies] at relative
  rw [visit_of_isDirectory relative isDirectory included reached unmet]
  cases openDirectory setting.tree (directory.path.child head) directory.scope directory.config
      progress.cascade with
  | error error => exact Or.inl ⟨error, rfl⟩
  | ok opened => exact Or.inr ⟨opened.1, _, rfl⟩

/-- A walk that ends well comes to the file. -/
theorem walkDirectory_comes (setting : Setting)
    (suite : NestedSuite setting.tree cascade entry layers)
    (valid : IsPlace rootPlace) (wanted : Wanted setting layers config names name)
    {rest : List String} (way : names = above ++ rest)
    (fits : directory.Fits setting layers rootPlace above progress.cascade)
    (fresh : ∀ name ∈ directory.names, Fresh rootPlace (above ++ [name]) progress)
    (enough : (progress.ahead setting.tree).length < depth)
    (ended : walkDirectory setting depth directory progress = (findings, .ok after)) :
    ∃ test, .test test ∈ findings ∧ test.path = setting.root.descend (names ++ [name]) := by
  have visible : ∀ segment ∈ names ++ [name], isVisible segment = true :=
    ((isTest_iff (wanted.below.isPlace suite.plain)).mpr wanted.selected).2
  -- By induction on the way from the directory down to that of the file.
  induction rest generalizing above directory progress findings after with
  | nil =>
    rw [List.append_nil] at way
    subst way
    have member := fits.mem_names wanted.below
      (visible name (List.mem_append_right _ List.mem_cons_self))
    rw [walkDirectory_unroll enough] at ended
    obtain ⟨between, found, later, fits', -, -, entered, within⟩ :=
      walkEntries_comes suite valid fits (fun _ => id) fits.nodup fresh ended member
    obtain ⟨test, visited, path⟩ := wanted.found suite.plain fits'
    rw [walkEntry, visited] at entered
    cases entered
    exact ⟨test, within _ List.mem_cons_self, path⟩
  | cons head rest ih =>
    have inside : head ∈ names ++ [name] := by simp [way]
    have below : Below setting.tree setting.root (above ++ [head]) := by
      have below := wanted.below
      rw [way, List.append_assoc, List.cons_append, List.append_cons] at below
      exact below.of_append
    have member := fits.mem_names below (visible head inside)
    rw [walkDirectory_unroll enough] at ended
    obtain ⟨between, found, later, fits', fresh', fewer, entered, within⟩ :=
      walkEntries_comes suite valid fits (fun _ => id) fits.nodup fresh ended member
    -- An error would have ended the walk.
    rcases wanted.opened suite.plain way fits' member fresh' with ⟨error, visited⟩ | opened
    · rw [walkEntry, visited] at entered
      cases entered
    · obtain ⟨inner, after', visited⟩ := opened
      obtain ⟨fits'', -, visited'⟩ := visit_opened_fits suite valid fits' member visited
      have enough' := (ahead_lt_of_opened visited).trans (fewer.trans_lt enough)
      rw [walkEntry, visited] at entered
      obtain ⟨_, _, more, single, ended', rfl⟩ := Part.andThen_eq_ok_iff.mp entered
      cases single
      obtain ⟨test, found, path⟩ := ih (by rw [way, List.append_cons]) fits''
        (fun _ _ => fresh'.inside valid visited') enough' ended'
      exact ⟨test, within _ (List.mem_cons_of_mem _ found), path⟩

end Walk

/-! ### Exactly the selected files -/

variable {tests : List TestCase}

/-- Nothing below the source root has been entered at the start of a walk. -/
theorem start_fresh (plain : tree.Plain) {progress : Progress}
    (located : tree.locate root {} = .ok rootPlace) (valid : IsPlace rootPlace)
    (visited : progress.visited = [root]) : Fresh rootPlace [name] progress := by
  intro inner valid' inside
  rw [visited, List.any_cons, List.any_nil, Bool.or_false, ← Bool.not_eq_true]
  intro same
  rw [Path.same_iff] at same
  have equal := plain.locate_of_same (List.forall_mem_append.mpr ⟨valid, valid'⟩)
    (Path.same_iff.mpr same.symm) located
  rw [List.self_eq_append_right.mp equal] at inside
  exact not_concat_prefix [] name inside

/-- A discovery that ends well finds exactly the files below the source root that the configuration
in effect in their directory and the selection make tests. -/
theorem discover_exact (suite : NestedSuite tree cascade entry layers)
    (discovered : discover tree cascade entry selection = .ok tests) (path : Path) :
    (∃ test ∈ tests, test.path = path) ↔
      ∃ names name config, path = (rootOf tree layers).descend (names ++ [name]) ∧
        Below tree (rootOf tree layers) (names ++ [name]) ∧ tree.isDirectory path = false ∧
        Amounts tree layers (localFiles tree (rootOf tree layers) names) config ∧
        IsSelected selection config path names name := by
  obtain ⟨directory, progress, findings, after, started, walked, rfl⟩ :=
    discover_eq_ok_iff.mp discovered
  obtain ⟨root, rootPlace, valid, fits, visited⟩ := start_fits suite selection started
  rw [← root]
  -- What the walk finds is wanted, and it comes to whatever is wanted.
  constructor
  · rintro ⟨test, member, rfl⟩
    obtain ⟨rootPlace, -, found⟩ := walk_fits suite started
    rw [walked] at found
    obtain ⟨names, name, path, wanted⟩ := (found _ (mem_tests.mp member)).wanted suite.plain
    refine ⟨names, name, test.config, path, wanted.below, ?_, wanted.amounts, ?_⟩
    · rw [path, wanted.noDirectory]
    · rw [path]
      exact wanted.selected
  · rintro ⟨names, name, config, rfl, below, noDirectory, amounts, selected⟩
    have located := fits.located
    rw [List.append_nil] at located
    obtain ⟨test, member, path⟩ := walkDirectory_comes
      { tree, root := directory.path, selection } suite valid
      ⟨below, noDirectory, amounts, selected⟩ rfl fits
      (fun name _ => start_fresh suite.plain located valid visited) (ahead_lt progress tree) walked
    exact ⟨test, mem_tests.mpr member, path⟩

/-- One directory of the suite but for one test, and a file that has not the suffix of tests. -/
def nestedSelection : Selection where
  paths := [⟨"/a"⟩, ⟨"/c/y.u"⟩]
  acceptsName := (· != "a/b/y.u")

theorem nested_exact : ∃ layers tests,
    NestedSuite nestedTree nestedCascade nestedEntry layers ∧ rootOf nestedTree layers = ⟨"/"⟩ ∧
    discover nestedTree nestedCascade nestedEntry nestedSelection = .ok tests ∧
    tests.map (·.path) = [⟨"/a/x.t"⟩, ⟨"/c/y.u"⟩] ∧
    ∀ path, (∃ test ∈ tests, test.path = path) ↔
      ∃ names name config, path = (rootOf nestedTree layers).descend (names ++ [name]) ∧
        Below nestedTree (rootOf nestedTree layers) (names ++ [name]) ∧
        nestedTree.isDirectory path = false ∧
        Amounts nestedTree layers (localFiles nestedTree (rootOf nestedTree layers) names) config ∧
        IsSelected nestedSelection config path names name := by
  obtain ⟨layers, suite, root⟩ := exists_nestedSuite
  have finds : (discover nestedTree nestedCascade nestedEntry nestedSelection).toOption.map
      (·.map (·.path)) = some [⟨"/a/x.t"⟩, ⟨"/c/y.u"⟩] := by decide +kernel
  obtain ⟨tests, discovered, paths⟩ := exists_eq_ok finds
  exact ⟨layers, tests, suite, root, discovered, paths, discover_exact suite discovered⟩

end SuiteRunner.Discovery
