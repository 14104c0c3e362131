import Mathlib.Data.List.Infix
import SuiteRunner.Discovery.Walker
import SuiteRunner.Proofs.Config.Extension
import SuiteRunner.Proofs.Discovery.Walk
import SuiteRunner.Proofs.Files.Descent

/-!
# The layers of a test

The cascade of a walk only grows, and yet a test sees no layers but its own: the local layers
of the directories from its own up to the source root, the deepest first, and behind them the
layers of the entry. For what a walk adds to the cascade below a directory it adds under scopes
below that directory, and no such scope occurs in the chain of the directory.
-/

namespace SuiteRunner.Discovery

open Config Files

variable {tree : FileTree} {cascade cascade' after : Cascade} {entry path root scope : Path}
  {layers : List Layer} {config : EffectiveConfig} {place rootPlace : Place}
  {names : List String} {name : String}

/-- A suite without links in which local layers name no parents, with the chain of its entry, in
which there are no local layers. -/
structure NestedSuite (tree : FileTree) (cascade : Cascade) (entry : Path) (layers : List Layer) :
    Prop where
  plain : tree.Plain
  inherits : ∀ standing ∈ tree.entries, standing.1.getLast? = some localLayerFile →
    (loadLayer tree (Place.path standing.1)).toOption.all (·.parent.isNone) = true
  chained : cascade.chain entry = .ok layers
  shared : ∀ layer ∈ layers, layer.scope.fileName? ≠ some localLayerFile

/-- The source root of a suite. -/
def rootOf (tree : FileTree) (layers : List Layer) : Path := tree.key (flatten layers).sourceRoot

/-! ### Local layer files -/

/-- The local layer file of a directory, if it has one. -/
def ownFile (tree : FileTree) (directory : Path) : List Path :=
  [directory.child localLayerFile].filter tree.isFile

/-- The local layer files of the directories from the one under some names up to the root, the
deepest first. -/
def localFiles (tree : FileTree) (root : Path) (names : List String) : List Path :=
  (names.inits.reverse.map fun above => (root.descend above).child localLayerFile).filter
    tree.isFile

theorem localFiles_nil : localFiles tree root [] = ownFile tree root := rfl

theorem localFiles_concat : localFiles tree root (names ++ [name]) =
    ownFile tree (root.descend (names ++ [name])) ++ localFiles tree root names := by
  have inits : (names ++ [name]).inits.reverse = (names ++ [name]) :: names.inits.reverse := by
    rw [List.inits_append]
    simp
  rw [localFiles, inits, List.map_cons, ← List.singleton_append, List.filter_append]
  rfl

/-- The scope of the local layer of a directory under some names below a place. -/
def localScope (rootPlace : Place) (names : List String) : Path :=
  Place.path (rootPlace ++ names ++ [localLayerFile])

theorem fileName?_localScope (valid : IsPlace rootPlace) (valid' : IsPlace names) :
    (localScope rootPlace names).fileName? = some localLayerFile := by
  have whole : IsPlace (rootPlace ++ names) := List.forall_mem_append.mpr ⟨valid, valid'⟩
  rw [Path.fileName?, localScope, Place.components_path_append whole isName_localLayerFile,
    List.getLast?_concat]

theorem eq_of_same_localScope {names' : List String} (valid : IsPlace rootPlace)
    (valid' : IsPlace names) (valid'' : IsPlace names')
    (same : (localScope rootPlace names).same (localScope rootPlace names') = true) :
    names = names' := by
  rw [localScope, localScope, List.append_assoc, List.append_assoc] at same
  have equal := Place.eq_of_same_append valid (isPlace_append valid' isName_localLayerFile)
    (isPlace_append valid'' isName_localLayerFile) same
  exact List.append_cancel_right equal

/-- The local layer file of a directory stands in the place of its scope. -/
theorem localLayer_stands (plain : tree.Plain)
    (located : tree.locate path {} = .ok (rootPlace ++ names))
    (isFile : tree.isFile (path.child localLayerFile) = true) :
    tree.key (path.child localLayerFile) = localScope rootPlace names ∧
      ∃ entry, (rootPlace ++ names ++ [localLayerFile], entry) ∈ tree.entries := by
  obtain ⟨content, executable, found⟩ := FileTree.isFile_iff.mp isFile
  obtain ⟨place, located', stands⟩ := FileTree.find_eq_ok_iff.mp found
  obtain rfl := plain.locate_child isName_localLayerFile located located'
  refine ⟨?_, _, FileTree.Plain.mem_entries (by simp) stands⟩
  simp only [FileTree.key, FileTree.canonical?, located', Option.getD_some, localScope]

/-- A local layer names no parent. -/
theorem NestedSuite.parent_eq_none (suite : NestedSuite tree cascade entry layers)
    (located : tree.locate path {} = .ok (rootPlace ++ names))
    (isFile : tree.isFile (path.child localLayerFile) = true) {layer : Layer}
    (loaded : loadLayer tree (path.child localLayerFile) = .ok layer) : layer.parent = none := by
  obtain ⟨key, entry, member⟩ := localLayer_stands suite.plain located isFile
  -- The layer is read under its identity, so its file is found there as well.
  obtain ⟨-, content, read⟩ := read_of_loadLayer loaded
  obtain ⟨other, again⟩ := FileTree.exists_find_of_read read
  have holds := FileTree.HoldsFile.of_isFile suite.plain isFile again
  have loaded' : loadLayer tree (localScope rootPlace names) = .ok layer := by
    rw [← key, loadLayer_congr holds.key, loaded]
  have checked := suite.inherits _ member (List.getLast?_concat ..)
  rw [← localScope, loaded'] at checked
  exact Option.isNone_iff_eq_none.mp checked

/-! ### What is in effect -/

/-- The configuration that local layer files amount to in front of other layers. -/
def Amounts (tree : FileTree) (layers : List Layer) (files : List Path)
    (config : EffectiveConfig) : Prop :=
  ∃ locals, List.Forall₂ (fun file layer => loadLayer tree file = .ok layer) files locals ∧
    config = flatten (locals ++ layers)

/-- A scope whose chain has the layers of local layer files in front of other layers, and the
configuration that they amount to. -/
def InEffect (tree : FileTree) (layers : List Layer) (files : List Path) (cascade : Cascade)
    (scope : Path) (config : EffectiveConfig) : Prop :=
  ∃ locals chain, List.Forall₂ (fun file layer => loadLayer tree file = .ok layer) files locals ∧
    cascade.chain scope = .ok chain ∧
    chain.map Layer.unlinked = (locals ++ layers).map Layer.unlinked ∧
    config = flatten (locals ++ layers)

theorem InEffect.amounts {files : List Path}
    (effect : InEffect tree layers files cascade scope config) :
    Amounts tree layers files config := by
  obtain ⟨locals, chain, loaded, -, -, amounts⟩ := effect
  exact ⟨locals, loaded, amounts⟩

theorem scopes_of_loaded {files : List Path} {locals : List Layer}
    (loaded : List.Forall₂ (fun file layer => loadLayer tree file = .ok layer) files locals) :
    locals.map (·.scope) = files.map tree.key := by
  induction loaded with
  | nil => rfl
  | cons first rest ih => rw [List.map_cons, List.map_cons, ih, (read_of_loadLayer first).1]

theorem Amounts.chain {files : List Path} (amounts : Amounts tree layers files config) :
    config.chain = files.map tree.key ++ layers.map (·.scope) := by
  obtain ⟨locals, loaded, rfl⟩ := amounts
  rw [← scopes_of_loaded loaded, ← List.map_append]
  rfl

theorem scopes_of_unlinked {chain chain' : List Layer}
    (same : chain.map Layer.unlinked = chain'.map Layer.unlinked) :
    chain.map (·.scope) = chain'.map (·.scope) := by
  have scopes := congrArg (List.map (·.scope)) same
  rwa [List.map_map, List.map_map] at scopes

/-- The scope of a local layer is not that of any layer in a chain, if it is the scope of none of
its local layers. -/
theorem NestedSuite.apart (suite : NestedSuite tree cascade entry layers)
    (valid : IsPlace rootPlace) (valid' : IsPlace names) {files : List Path}
    {locals chain : List Layer}
    (loaded : List.Forall₂ (fun file layer => loadLayer tree file = .ok layer) files locals)
    (same : chain.map Layer.unlinked = (locals ++ layers).map Layer.unlinked)
    (elsewhere : ∀ file ∈ files, (localScope rootPlace names).same (tree.key file) = false) :
    ∀ layer ∈ chain, (localScope rootPlace names).same layer.scope = false := by
  have scopes := scopes_of_unlinked same
  rw [List.map_append, scopes_of_loaded loaded] at scopes
  intro layer member
  have listed : layer.scope ∈ chain.map (·.scope) := List.mem_map_of_mem member
  rw [scopes] at listed
  rcases List.mem_append.mp listed with own | inherited
  · obtain ⟨file, inside, key⟩ := List.mem_map.mp own
    exact key ▸ elsewhere file inside
  · obtain ⟨other, inside, key⟩ := List.mem_map.mp inherited
    rw [← key, ← Bool.not_eq_true, Path.same_iff]
    intro equal
    -- The layers of the entry are no local layers.
    refine suite.shared other inside ?_
    rw [Path.fileName?, ← equal]
    exact fileName?_localScope valid valid'

/-- Opening a directory puts its own layer in front of those that are in effect around it, and
changes the cascade under the scope of that layer only. -/
theorem NestedSuite.openDirectory_inEffect (suite : NestedSuite tree cascade' entry layers)
    (valid : IsPlace rootPlace) (valid' : IsPlace names)
    (located : tree.locate path {} = .ok (rootPlace ++ names)) {files : List Path}
    (effect : InEffect tree layers files cascade scope config)
    (elsewhere : ∀ file ∈ files, (localScope rootPlace names).same (tree.key file) = false)
    {inner : Directory}
    (opened : openDirectory tree path scope config cascade = .ok (inner, after)) :
    InEffect tree layers (ownFile tree path ++ files) after inner.scope inner.config ∧
      ∀ other, (localScope rootPlace names).same other = false →
        after.get? other = cascade.get? other := by
  obtain ⟨scope', config', listed, applied, -, rfl⟩ := openDirectory_eq_ok_iff.mp opened
  obtain ⟨locals, chain, loaded, followed, same, rfl⟩ := effect
  cases isFile : tree.isFile (path.child localLayerFile) with
  | false =>
    rw [applyLocalLayer_of_none isFile] at applied
    cases applied
    rw [ownFile, List.filter_singleton, isFile]
    exact ⟨⟨locals, chain, loaded, followed, same, rfl⟩, fun other _ => rfl⟩
  | true =>
    obtain ⟨layer, read, rfl, parents, resolved, -⟩ := (applyLocalLayer_eq_ok_iff isFile).mp applied
    have key : layer.scope = localScope rootPlace names :=
      (read_of_loadLayer read).1.trans (localLayer_stands suite.plain located isFile).1
    have orphan := suite.parent_eq_none located isFile read
    have apart : ∀ other ∈ chain, layer.scope.same other.scope = false := by
      rw [key]
      exact suite.apart valid valid' loaded same elsewhere
    -- The layer around is in the cascade already, so there is no parent to load.
    have known : (cascade.insert (withParent layer scope)).contains scope = true := by
      rw [Cascade.contains_insert, contains_of_chain followed, Bool.or_true]
    rw [orphan, Option.getD_none, loadParent_of_contains known] at parents
    cases parents
    have inherits : (withParent layer scope).parent = some scope := by
      rw [withParent, orphan]
      rfl
    have followed' : (cascade.insert (withParent layer scope)).chain layer.scope =
        .ok (withParent layer scope :: chain) := Cascade.chain_insert followed inherits apart
    have same' : (withParent layer scope :: chain).map Layer.unlinked =
        (layer :: locals ++ layers).map Layer.unlinked := by
      rw [List.map_cons, same]
      rfl
    rw [ownFile, List.filter_singleton, isFile]
    refine ⟨⟨layer :: locals, _, .cons read loaded, followed', same', ?_⟩, ?_⟩
    · rw [Cascade.resolve, followed'] at resolved
      cases resolved
      exact flatten_congr same'
    · intro other different
      rw [← key] at different
      exact Cascade.get?_insert_of_other different

/-! ### Directories of a walk -/

/-- What lies below a directory, listed in one directory after the other. -/
inductive Below (tree : FileTree) (root : Path) : List String → Prop where
  | root : Below tree root []
  | entry {names listed : List String} {name : String} (above : Below tree root names)
      (lists : tree.names (root.descend names) = .ok listed) (member : name ∈ listed) :
      Below tree root (names ++ [name])

/-- What a walk knows of a directory that it has opened under some names below the root. -/
structure Directory.Fits (directory : Directory) (setting : Setting) (layers : List Layer)
    (rootPlace : Place) (names : List String) (cascade : Cascade) : Prop where
  path : directory.path = setting.root.descend names
  valid : IsPlace names
  located : setting.tree.locate directory.path {} = .ok (rootPlace ++ names)
  below : Below setting.tree setting.root names
  visible : ∀ name ∈ names, isVisible name = true
  lists : ∃ listed, setting.tree.names directory.path = .ok listed ∧
    directory.names = visibleNames listed
  outer : ∀ file ∈ localFiles setting.tree setting.root names,
    ∃ above, above <+: names ∧ setting.tree.key file = localScope rootPlace above
  effect : InEffect setting.tree layers (localFiles setting.tree setting.root names) cascade
    directory.scope directory.config

/-- A walk below some names changes the cascade only under the scopes of directories there, and
enters only directories there. -/
structure ChangesBelow (rootPlace : Place) (names : List String) (before after : Progress) :
    Prop where
  cascade : ∀ scope, (∀ inner, IsPlace inner → names <+: inner →
    (localScope rootPlace inner).same scope = false) →
      after.cascade.get? scope = before.cascade.get? scope
  visited : ∀ inner, IsPlace inner → ¬ names <+: inner →
    after.visited.any (Path.same (Place.path (rootPlace ++ inner))) =
      before.visited.any (Path.same (Place.path (rootPlace ++ inner)))

namespace ChangesBelow

variable {before between later : Progress}

theorem refl (rootPlace : Place) (names : List String) (progress : Progress) :
    ChangesBelow rootPlace names progress progress := ⟨fun _ _ => rfl, fun _ _ _ => rfl⟩

theorem trans (first : ChangesBelow rootPlace names before between)
    (second : ChangesBelow rootPlace names between later) :
    ChangesBelow rootPlace names before later :=
  ⟨fun scope apart => (second.cascade scope apart).trans (first.cascade scope apart),
    fun inner valid apart => (second.visited inner valid apart).trans
      (first.visited inner valid apart)⟩

/-- What changes little further down changes little from further up. -/
theorem widen {above : List String} (within : above <+: names)
    (changes : ChangesBelow rootPlace names before later) :
    ChangesBelow rootPlace above before later :=
  ⟨fun scope apart => changes.cascade scope fun inner valid inside =>
      apart inner valid (within.trans inside),
    fun inner valid apart => changes.visited inner valid fun inside => apart (within.trans inside)⟩

end ChangesBelow

theorem not_concat_prefix (above : List String) (name : String) : ¬ (above ++ [name]) <+: above :=
  fun within => absurd within.length_le (by simp)

section Walk

variable {setting : Setting} {directory inner : Directory} {progress progress' : Progress}
  {above : List String}

namespace Directory.Fits

theorem isName (plain : setting.tree.Plain)
    (fits : directory.Fits setting layers rootPlace above cascade)
    (member : name ∈ directory.names) : IsName name := by
  obtain ⟨listed, lists, shown⟩ := fits.lists
  rw [shown] at member
  exact isName_of_mem_visibleNames (plain.named.isName_of_mem_names lists) name member

/-- A directory below is found in the place that its names say. -/
theorem key_child (plain : setting.tree.Plain)
    (fits : directory.Fits setting layers rootPlace above cascade) (member : name ∈ directory.names)
    (isDirectory : setting.tree.isDirectory (directory.path.child name) = true) :
    setting.tree.locate (directory.path.child name) {} = .ok (rootPlace ++ (above ++ [name])) ∧
      setting.tree.key (directory.path.child name) =
        Place.path (rootPlace ++ (above ++ [name])) := by
  obtain ⟨place, located, -⟩ :=
    FileTree.find_eq_ok_iff.mp (FileTree.isDirectory_iff.mp isDirectory)
  obtain rfl := plain.locate_child (fits.isName plain member) fits.located located
  rw [List.append_assoc] at located
  refine ⟨located, ?_⟩
  simp only [FileTree.key, FileTree.canonical?, located, Option.getD_some]

/-- The scopes of the local layers of a directory are those of directories around it. -/
theorem elsewhere (fits : directory.Fits setting layers rootPlace above cascade)
    (valid : IsPlace rootPlace) (valid' : IsPlace names) (outside : ¬ names <+: above) :
    ∀ file ∈ localFiles setting.tree setting.root above,
      (localScope rootPlace names).same (setting.tree.key file) = false := by
  intro file member
  obtain ⟨outer, within, key⟩ := fits.outer file member
  rw [key, ← Bool.not_eq_true]
  intro same
  have equal := eq_of_same_localScope valid valid' (fits.valid.of_prefix within) same
  exact outside (equal ▸ within)

/-- What is in effect in a directory stays in effect while a walk goes through one of its
entries. -/
theorem of_changes (suite : NestedSuite setting.tree cascade entry layers)
    (valid : IsPlace rootPlace)
    (fits : directory.Fits setting layers rootPlace above progress.cascade)
    (changes : ChangesBelow rootPlace (above ++ [name]) progress progress') :
    directory.Fits setting layers rootPlace above progress'.cascade := by
  obtain ⟨locals, chain, loaded, followed, same, amounts⟩ := fits.effect
  refine { fits with effect := ⟨locals, chain, loaded, ?_, same, amounts⟩ }
  refine Cascade.chain_congr followed fun layer member => ?_
  refine changes.cascade layer.scope fun inner valid' inside => ?_
  have outside : ¬ inner <+: above := fun within =>
    not_concat_prefix above name (inside.trans within)
  exact suite.apart valid valid' loaded same (fits.elsewhere valid valid' outside) layer member

end Directory.Fits

/-- A directory fits once it has been opened where some local layers are in effect. -/
theorem openDirectory_fits (setting : Setting)
    (suite : NestedSuite setting.tree cascade' entry layers)
    (valid : IsPlace rootPlace) (valid' : IsPlace names) {path : Path}
    (lies : path = setting.root.descend names)
    (located : setting.tree.locate path {} = .ok (rootPlace ++ names))
    (below : Below setting.tree setting.root names)
    (visible : ∀ name ∈ names, isVisible name = true) {files : List Path}
    (own : localFiles setting.tree setting.root names = ownFile setting.tree path ++ files)
    (outer : ∀ file ∈ files, ∃ above, above <+: names ∧ above ≠ names ∧
      setting.tree.key file = localScope rootPlace above)
    (effect : InEffect setting.tree layers files cascade scope config)
    (opened : openDirectory setting.tree path scope config cascade = .ok (inner, after)) :
    inner.Fits setting layers rootPlace names after ∧
      ∀ other, (localScope rootPlace names).same other = false →
        after.get? other = cascade.get? other := by
  -- A file of a directory above has another scope than the one here, or the two directories would
  -- be one.
  have elsewhere : ∀ file ∈ files,
      (localScope rootPlace names).same (setting.tree.key file) = false := by
    intro file member
    obtain ⟨above, within, different, key⟩ := outer file member
    rw [key, ← Bool.not_eq_true]
    intro same
    exact different (eq_of_same_localScope valid valid' (valid'.of_prefix within) same).symm
  obtain ⟨effect', unchanged⟩ :=
    suite.openDirectory_inEffect valid valid' located effect elsewhere opened
  obtain ⟨scope', config', listed, -, lists, rfl⟩ := openDirectory_eq_ok_iff.mp opened
  refine ⟨⟨lies, valid', located, below, visible, ⟨listed, lists, rfl⟩, ?_, own ▸ effect'⟩,
    unchanged⟩
  rw [own]
  intro file member
  -- The scopes in effect are this directory's own, if it has a layer, and those of the directories
  -- above.
  rcases List.mem_append.mp member with here | further
  · obtain ⟨single, isFile⟩ := List.mem_filter.mp here
    obtain rfl := List.mem_singleton.mp single
    exact ⟨names, List.prefix_refl _, (localLayer_stands suite.plain located isFile).1⟩
  · obtain ⟨above, within, -, key⟩ := outer file further
    exact ⟨above, within, key⟩

/-- A directory that is opened below another one fits in its turn. -/
theorem visit_opened_fits (suite : NestedSuite setting.tree cascade entry layers)
    (valid : IsPlace rootPlace)
    (fits : directory.Fits setting layers rootPlace above progress.cascade)
    (member : name ∈ directory.names)
    (visited : setting.visit directory name progress = .opened inner progress') :
    inner.Fits setting layers rootPlace (above ++ [name]) progress'.cascade ∧
      ChangesBelow rootPlace (above ++ [name]) progress progress' ∧
      progress'.visited = Place.path (rootPlace ++ (above ++ [name])) :: progress.visited := by
  have named := fits.isName suite.plain member
  have valid' : IsPlace (above ++ [name]) := isPlace_append fits.valid named
  obtain ⟨relative, cascade', -, isDirectory, -, -, -, opened, rfl⟩ := visit_opened visited
  -- Where the directory is, and how it was come across.
  have lies : directory.path.child name = setting.root.descend (above ++ [name]) := by
    rw [Path.descend_concat, fits.path]
  obtain ⟨located, key⟩ := fits.key_child suite.plain member isDirectory
  obtain ⟨listed, lists, shown⟩ := fits.lists
  rw [shown, mem_visibleNames] at member
  obtain ⟨inside, visible⟩ := member
  have below : Below setting.tree setting.root (above ++ [name]) :=
    fits.below.entry (fits.path ▸ lists) inside
  obtain ⟨fits', unchanged⟩ := openDirectory_fits setting suite valid valid' lies located below
    (List.forall_mem_append.mpr ⟨fits.visible, List.forall_mem_singleton.mpr visible⟩)
    (lies ▸ localFiles_concat) (fun file member' => by
      obtain ⟨outer, within, key⟩ := fits.outer file member'
      refine ⟨outer, within.trans (List.prefix_append _ _), ?_, key⟩
      rintro rfl
      exact not_concat_prefix above name within) fits.effect opened
  rw [key]
  refine ⟨fits', ⟨fun scope apart => ?_, fun inner valid'' outside => ?_⟩, rfl⟩
  · exact unchanged scope (apart _ valid' (List.prefix_refl _))
  · have different : (Place.path (rootPlace ++ inner)).same
        (Place.path (rootPlace ++ (above ++ [name]))) = false := by
      rw [← Bool.not_eq_true]
      intro same
      have equal := Place.eq_of_same_append valid valid'' valid' same
      exact outside (equal ▸ List.prefix_refl _)
    simp only [List.any_cons, different, Bool.false_or]

/-! ### Walking below a directory -/

/-- A test that a walk has found in a directory that fits. -/
def FoundIn (setting : Setting) (layers : List Layer) (rootPlace : Place) (finding : Finding) :
    Prop :=
  ∀ test, finding = .test test → ∃ above directory name progress,
    directory.Fits setting layers rootPlace above progress.cascade ∧ name ∈ directory.names ∧
      setting.visit directory name progress = .found test

theorem walkEntry_fits (suite : NestedSuite setting.tree cascade entry layers)
    (valid : IsPlace rootPlace) {enter : Directory → Progress → Part}
    (enters : ∀ inner progress,
      inner.Fits setting layers rootPlace (above ++ [name]) progress.cascade →
        (enter inner progress).Keeps (ChangesBelow rootPlace (above ++ [name]) progress)
          (FoundIn setting layers rootPlace))
    (fits : directory.Fits setting layers rootPlace above progress.cascade)
    (member : name ∈ directory.names) :
    (walkEntry setting enter directory name progress).Keeps
      (ChangesBelow rootPlace (above ++ [name]) progress) (FoundIn setting layers rootPlace) := by
  have unchanged := ChangesBelow.refl rootPlace (above ++ [name]) progress
  rw [walkEntry]
  -- What the visit answers decides: only an opened directory changes the cascade, by its own layer,
  -- and what is below it changes it further below.
  split
  next => exact .of_ok (List.forall_mem_nil _) unchanged
  next test visited =>
    refine .of_ok (List.forall_mem_singleton.mpr fun test' same => ?_) unchanged
    cases same
    exact ⟨above, directory, name, progress, fits, member, visited⟩
  next error _ => exact .of_error (List.forall_mem_nil _) error
  next inner after visited =>
    obtain ⟨fits', changes, -⟩ := visit_opened_fits suite valid fits member visited
    have here : Part.Keeps (· = after) (FoundIn setting layers rootPlace)
        ([.directory inner], .ok after) :=
      .of_ok (List.forall_mem_singleton.mpr fun _ other => by cases other) rfl
    refine here.andThen fun between same => ?_
    rw [same]
    exact (enters inner after fits').mono fun later => changes.trans

/-- A walk through entries of a directory changes things below the directory only, and all that
it finds it finds in directories that fit. -/
theorem walkEntries_fits (suite : NestedSuite setting.tree cascade entry layers)
    (valid : IsPlace rootPlace) {enter : Directory → Progress → Part}
    (enters : ∀ name inner progress,
      inner.Fits setting layers rootPlace (above ++ [name]) progress.cascade →
        (enter inner progress).Keeps (ChangesBelow rootPlace (above ++ [name]) progress)
          (FoundIn setting layers rootPlace))
    {listed : List String} (inside : ∀ name ∈ listed, name ∈ directory.names)
    (fits : directory.Fits setting layers rootPlace above progress.cascade) :
    Part.Keeps (ChangesBelow rootPlace above progress) (FoundIn setting layers rootPlace)
      (walkEntries setting enter directory listed progress) := by
  induction listed generalizing progress with
  | nil => exact .of_ok (List.forall_mem_nil _) (.refl _ _ _)
  | cons name listed ih =>
    have first := walkEntry_fits suite valid (enters name) fits (inside name List.mem_cons_self)
    rw [walkEntries_cons]
    refine first.andThen fun after changes => ?_
    -- The directory still fits behind its first entry, and so for the others.
    have rest := ih (fun other member => inside other (List.mem_cons_of_mem _ member))
      (fits.of_changes suite valid changes)
    exact rest.mono fun later => (changes.widen (List.prefix_append _ _)).trans

theorem walkDirectory_fits (suite : NestedSuite setting.tree cascade entry layers)
    (valid : IsPlace rootPlace) {depth : Nat}
    (fits : directory.Fits setting layers rootPlace above progress.cascade) :
    Part.Keeps (ChangesBelow rootPlace above progress) (FoundIn setting layers rootPlace)
      (walkDirectory setting depth directory progress) := by
  induction depth generalizing directory progress above with
  | zero => exact .of_ok (List.forall_mem_nil _) (.refl _ _ _)
  | succ depth ih =>
    exact walkEntries_fits suite valid (fun name inner progress => ih) (fun _ => id) fits

end Walk

/-! ### From the source root -/

section Start

variable {directory : Directory} {progress : Progress} {selection : Selection} {test : TestCase}

/-- The source root fits at the start of a walk. -/
theorem start_fits (suite : NestedSuite tree cascade entry layers) (selection : Selection)
    (started : start tree cascade entry = .ok (directory, progress)) :
    directory.path = rootOf tree layers ∧ ∃ rootPlace, IsPlace rootPlace ∧
      directory.Fits { tree, root := directory.path, selection } layers rootPlace []
        progress.cascade ∧ progress.visited = [directory.path] := by
  obtain ⟨config, after, resolved, path, opened, rfl⟩ := start_eq_ok started
  rw [Cascade.resolve, suite.chained] at resolved
  cases resolved
  obtain ⟨scope', config', listed, -, lists, -⟩ := openDirectory_eq_ok_iff.mp opened
  obtain ⟨rootPlace, located, stands, -⟩ := FileTree.names_eq_ok_iff.mp lists
  have valid := suite.plain.isPlace_of_stands stands
  have located' : tree.locate directory.path {} = .ok (rootPlace ++ []) := by
    rw [located, List.append_nil]
  have own : localFiles tree directory.path [] = ownFile tree directory.path ++ [] := by
    rw [localFiles_nil, List.append_nil]
  -- No local layer is in effect around the source root.
  have effect : InEffect tree layers [] cascade entry (flatten layers) :=
    ⟨[], layers, .nil, suite.chained, rfl, rfl⟩
  obtain ⟨fits, -⟩ := openDirectory_fits { tree, root := directory.path, selection } suite valid
    (List.forall_mem_nil _) rfl located' .root (List.forall_mem_nil _) own
    (List.forall_mem_nil _) effect opened
  exact ⟨path, rootPlace, valid, fits, rfl⟩

/-- What is found in a walk is found in directories that fit. -/
theorem walk_fits (suite : NestedSuite tree cascade entry layers)
    (started : start tree cascade entry = .ok (directory, progress)) :
    ∃ rootPlace, IsPlace rootPlace ∧ ∀ finding ∈ (walkBelow tree selection directory progress).1,
      FoundIn { tree, root := directory.path, selection } layers rootPlace finding := by
  obtain ⟨-, rootPlace, valid, fits, -⟩ := start_fits suite selection started
  exact ⟨rootPlace, valid, (walkDirectory_fits suite valid fits).1⟩

/-- A test has the layers of its own directory and of the directories above it up to the source
root, the deepest first, and behind them those of the entry. -/
theorem walk_layers (suite : NestedSuite tree cascade entry layers) {walk : Walk}
    (walked : Discovery.walk tree cascade entry selection = .ok walk) :
    ∀ test ∈ walk.tests, ∃ names name locals, IsPlace (names ++ [name]) ∧
      test.path = (rootOf tree layers).descend (names ++ [name]) ∧
      List.Forall₂ (fun file layer => loadLayer tree file = .ok layer)
        (localFiles tree (rootOf tree layers) names) locals ∧
      test.config = flatten (locals ++ layers) ∧
      test.config.chain =
        (localFiles tree (rootOf tree layers) names).map tree.key ++ layers.map (·.scope) := by
  intro test member
  obtain ⟨directory, progress, started, findings⟩ := walk_eq_ok walked
  obtain ⟨path, -⟩ := start_fits suite selection started
  obtain ⟨rootPlace, valid, found⟩ := walk_fits suite started
  rw [Walk.tests, mem_tests, findings] at member
  obtain ⟨names, inner, name, progress', fits, listed, visited⟩ := found _ member test rfl
  have named := fits.isName suite.plain listed
  obtain ⟨⟨lies, -⟩, config, -⟩ := visit_found_liesAt fits.path fits.valid named visited
  have amounts := fits.effect.amounts
  rw [← config] at amounts
  have chain := amounts.chain
  obtain ⟨locals, loaded, flat⟩ := amounts
  rw [← path]
  exact ⟨names, name, locals, isPlace_append fits.valid named, lies, loaded, flat, chain⟩

end Start

/-- A suite in which local layers inherit from each other, beside directories without one. -/
def nestedTree : FileTree where
  entries :=
    [ (["litmus.toml"], .file "suffixes = [\".t\"]\nexcludes = [\"skip\"]\n".toUTF8 false),
      (["a"], .directory),
      (["a", "litmus.local.toml"], .file "excludes = [\"no.t\"]\n".toUTF8 false),
      (["a", "b"], .directory),
      (["a", "b", "litmus.local.toml"], .file "suffixes = [\".u\"]\n".toUTF8 false),
      (["a", "b", "y.u"], .file "RUN: true\n".toUTF8 false),
      (["a", "no.t"], .file "RUN: true\n".toUTF8 false),
      (["a", "x.t"], .file "RUN: true\n".toUTF8 false),
      (["c"], .directory),
      (["c", "y.u"], .file "RUN: true\n".toUTF8 false),
      (["c", "z.t"], .file "RUN: true\n".toUTF8 false),
      (["skip"], .directory),
      (["skip", "s.t"], .file "RUN: true\n".toUTF8 false) ]

def nestedEntry : Path := ⟨"/litmus.toml"⟩

def nestedCascade : Cascade := (({} : Cascade).load nestedTree nestedEntry).1

theorem exists_nestedSuite : ∃ layers, NestedSuite nestedTree nestedCascade nestedEntry layers ∧
    rootOf nestedTree layers = ⟨"/"⟩ := by
  have computed : (nestedCascade.chain nestedEntry).toOption.map (fun layers =>
      (layers.map (·.scope.fileName?), rootOf nestedTree layers)) =
        some ([some "litmus.toml"], ⟨"/"⟩) := by decide +kernel
  obtain ⟨layers, chained, facts⟩ := exists_eq_ok computed
  obtain ⟨names, root⟩ := Prod.mk.inj facts
  refine ⟨layers, ⟨by decide +kernel, by decide +kernel, chained, ?_⟩, root⟩
  intro layer member
  have listed := List.mem_map_of_mem (f := fun layer : Layer => layer.scope.fileName?) member
  rw [names, List.mem_singleton] at listed
  rw [listed]
  decide

/-- The layers of `a` and `a/b` take part below these directories, and not in their sibling. -/
theorem nested_layers : ∃ layers walk, NestedSuite nestedTree nestedCascade nestedEntry layers ∧
    rootOf nestedTree layers = ⟨"/"⟩ ∧
    Discovery.walk nestedTree nestedCascade nestedEntry {} = .ok walk ∧
    walk.tests.map (fun test => (test.path, test.config.chain)) =
      [(⟨"/a/b/y.u"⟩, [⟨"/a/b/litmus.local.toml"⟩, ⟨"/a/litmus.local.toml"⟩, nestedEntry]),
        (⟨"/a/x.t"⟩, [⟨"/a/litmus.local.toml"⟩, nestedEntry]), (⟨"/c/z.t"⟩, [nestedEntry])] ∧
    ∀ test ∈ walk.tests, ∃ names name locals, IsPlace (names ++ [name]) ∧
      test.path = (rootOf nestedTree layers).descend (names ++ [name]) ∧
      List.Forall₂ (fun file layer => loadLayer nestedTree file = .ok layer)
        (localFiles nestedTree (rootOf nestedTree layers) names) locals ∧
      test.config = flatten (locals ++ layers) ∧
      test.config.chain =
        (localFiles nestedTree (rootOf nestedTree layers) names).map nestedTree.key ++
          layers.map (·.scope) := by
  obtain ⟨layers, suite, root⟩ := exists_nestedSuite
  have finds : (Discovery.walk nestedTree nestedCascade nestedEntry {}).toOption.map
      (fun walk => walk.tests.map fun test => (test.path, test.config.chain)) =
        some [(⟨"/a/b/y.u"⟩, [⟨"/a/b/litmus.local.toml"⟩, ⟨"/a/litmus.local.toml"⟩, nestedEntry]),
          (⟨"/a/x.t"⟩, [⟨"/a/litmus.local.toml"⟩, nestedEntry]), (⟨"/c/z.t"⟩, [nestedEntry])] := by
    decide +kernel
  obtain ⟨walk, walked, found⟩ := exists_eq_ok finds
  exact ⟨layers, walk, suite, root, walked, found, walk_layers suite walked⟩

end SuiteRunner.Discovery
