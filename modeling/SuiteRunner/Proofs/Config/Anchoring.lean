import SuiteRunner.Proofs.Config.Chain
import SuiteRunner.Proofs.Config.Keys
import SuiteRunner.Proofs.Config.Merging
import SuiteRunner.Proofs.Path.Parents

/-!
# Where the paths of a configuration start

The paths of a layer file are taken from the directory of that file as soon as it is read. Merging
only passes them on, and where no layer says where the tests are, the directory of the last layer
counts. So all paths of a configuration are absolute, a relative path of a layer file is found in
it behind the directory of that very file, and the working directory has no part in any of this.
-/

namespace SuiteRunner

open Files

/-! ### Other working directories -/

namespace Files.FileTree

variable {path : Path}

/-- The tree, seen from another working directory. -/
def seenFrom (tree : FileTree) (place : Place) : FileTree := { tree with workingDirectory := place }

theorem walkOn_seenFrom (tree : FileTree) (place : Place) (mode : Mode)
    (follow : String → Place → List Step → Except Failure Place) (here : Place)
    (steps : List Step) :
    (tree.seenFrom place).walkOn mode follow here steps = tree.walkOn mode follow here steps := by
  have entries (there : Place) : entry? (tree.seenFrom place) there = tree.entry? there := rfl
  induction steps generalizing here with
  | nil => rfl
  | cons step steps ih =>
    cases step with
    | stay => exact ih here
    | up => exact ih here.dropLast
    | down name => simp only [walkOn, entries, ih]

theorem walk_seenFrom (tree : FileTree) (place : Place) (mode : Mode) (links : Nat) (here : Place)
    (steps : List Step) :
    (tree.seenFrom place).walk mode links here steps = tree.walk mode links here steps := by
  induction links generalizing here steps with
  | zero => rw [walk, walk, walkOn_seenFrom]
  | succ links ih =>
    rw [walk, walk, walkOn_seenFrom]
    simp only [ih]

theorem locate_seenFrom (isAbsolute : path.isAbsolute = true) (tree : FileTree) (place : Place)
    (mode : Mode) : (tree.seenFrom place).locate path mode = tree.locate path mode := by
  rw [locate, locate, if_pos isAbsolute, if_pos isAbsolute, walk_seenFrom]

/-- The identity of an absolute path is the same from everywhere. -/
theorem key_seenFrom (isAbsolute : path.isAbsolute = true) (tree : FileTree) (place : Place) :
    (tree.seenFrom place).key path = tree.key path := by
  have spoken := Path.text_ne_of_isAbsolute isAbsolute
  rw [key, key, canonical?, canonical?, locate_seenFrom isAbsolute,
    Path.absolute?_of_spoken spoken, Path.absolute?_of_spoken spoken, if_pos isAbsolute,
    if_pos isAbsolute]

end Files.FileTree

namespace Config

variable {layer written : Layer} {cascade : Cascade} {chain : List Layer} {config : EffectiveConfig}

/-! ### Layers and their files -/

/-- The layer is what a file with an absolute path says, which is in some directory. -/
structure Layer.IsRead (layer : Layer) : Prop where
  rooted : layer.scope.isAbsolute = true
  inside : layer.scope.parent? ≠ none
  parsed : ∃ tree source, Layer.parse tree layer.scope source = .ok layer

/-- What the text of the layer file says, with the paths as they are written there. -/
def Layer.WrittenAs (layer written : Layer) : Prop :=
  ∃ tree source, Layer.decode layer.scope source = .ok written ∧
    Layer.parse tree layer.scope source = .ok layer

theorem isAbsolute_anchor {directory : Path} (isAbsolute : directory.isAbsolute = true)
    (path : Path) : (anchor directory path).isAbsolute = true := by
  unfold anchor
  split
  next already => exact already
  next => exact Path.isAbsolute_join isAbsolute path

theorem anchor_of_relative {path : Path} (relative : path.isAbsolute = false) (directory : Path) :
    anchor directory path = directory.join path := by
  simp [anchor, relative]

namespace Layer

theorem WrittenAs.eq_anchored (spelled : layer.WrittenAs written) :
    written.directory = layer.directory ∧ ∃ tree, layer = written.anchored tree := by
  obtain ⟨tree, source, decoded, parsed⟩ := spelled
  obtain ⟨written', decoded', anchored⟩ := exists_of_parse parsed
  cases decoded.symm.trans decoded'
  exact ⟨congrArg directoryOf (scope_of_decode decoded), tree, anchored⟩

/-- A setting with paths has those that the file says, taken from the directory of the file. -/
theorem WrittenAs.get {container : Type → Type} [Functor container] {get : Layer → container Path}
    (anchors : ∀ (tree : FileTree) (written : Layer),
      get (written.anchored tree) = anchor written.directory <$> get written)
    (spelled : layer.WrittenAs written) : get layer = anchor layer.directory <$> get written := by
  obtain ⟨directory, tree, rfl⟩ := spelled.eq_anchored
  rw [anchors, directory]

namespace IsRead

theorem exists_writtenAs (read : layer.IsRead) : ∃ written, layer.WrittenAs written := by
  obtain ⟨tree, source, parsed⟩ := read.parsed
  obtain ⟨written, decoded, -⟩ := exists_of_parse parsed
  exact ⟨written, tree, source, decoded, parsed⟩

theorem isAbsolute_directory (read : layer.IsRead) : layer.directory.isAbsolute = true := by
  obtain ⟨parent, found⟩ := Option.ne_none_iff_exists'.mp read.inside
  rw [directory, directoryOf, found, Option.getD_some]
  exact Path.isAbsolute_of_parent? read.rooted found

/-- Reading the file from another working directory gives the same. -/
theorem parse_seenFrom (read : layer.IsRead) (tree : FileTree) (place : Place) (source : String) :
    Layer.parse (tree.seenFrom place) layer.scope source = Layer.parse tree layer.scope source := by
  unfold Layer.parse
  cases decoded : Layer.decode layer.scope source with
  | error fault => rfl
  | ok written =>
    -- Of all paths only the parent is looked up, and only behind the directory of the file.
    have rooted : written.directory.isAbsolute = true := by
      rw [directory, scope_of_decode decoded]
      exact read.isAbsolute_directory
    have keys (path : Path) : (tree.seenFrom place).key (anchor written.directory path) =
        tree.key (anchor written.directory path) :=
      FileTree.key_seenFrom (isAbsolute_anchor rooted path) tree place
    simp only [anchored, keys]

end IsRead

end Layer

/-! ### Search lists -/

/-- The directories are those that the files of the chain list, each taken from the directory of
the file that lists it. -/
structure Gathers (chain : List Layer) (get : Layer → List Path) (directories : List Path) :
    Prop where
  isAbsolute : ∀ directory ∈ directories, directory.isAbsolute = true
  relative : ∀ layer ∈ chain, ∀ written, layer.WrittenAs written → ∀ path ∈ get written,
    path.isAbsolute = false →
      ∃ directory ∈ directories, directory.same (layer.directory.join path) = true
  origin : ∀ directory ∈ directories, ∃ layer ∈ chain, ∃ written, layer.WrittenAs written ∧
    ∃ path ∈ get written, directory = anchor layer.directory path

theorem gathers_mergeLists (read : ∀ layer ∈ chain, layer.IsRead) {get : Layer → List Path}
    (anchors : ∀ (tree : FileTree) (written : Layer),
      get (written.anchored tree) = (get written).map (anchor written.directory)) :
    Gathers chain get (mergeLists Path.same (chain.map get)) := by
  have joins := joins_paths (chain.map get)
  -- A gathered directory is in one of the lists, whose layer has been read, so it is the anchored
  -- form of one that is written there.
  have origin : ∀ directory ∈ mergeLists Path.same (chain.map get), ∃ layer ∈ chain, ∃ written,
      layer.WrittenAs written ∧ ∃ path ∈ get written, directory = anchor layer.directory path := by
    intro directory member
    obtain ⟨list, listed, inside⟩ := joins.exists_list member
    obtain ⟨layer, among, rfl⟩ := List.mem_map.mp listed
    obtain ⟨written, spelled⟩ := (read layer among).exists_writtenAs
    rw [spelled.get anchors] at inside
    obtain ⟨path, there, rfl⟩ := List.mem_map.mp inside
    exact ⟨layer, among, written, spelled, path, there, rfl⟩
  refine ⟨fun directory member => ?_, fun layer among written spelled path there relative => ?_,
    origin⟩
  · obtain ⟨layer, among, written, spelled, path, there, rfl⟩ := origin directory member
    exact isAbsolute_anchor (read layer among).isAbsolute_directory path
  · have inside : layer.directory.join path ∈ get layer := by
      rw [spelled.get anchors, ← anchor_of_relative relative]
      exact List.mem_map_of_mem there
    exact joins.exists_same (List.mem_map_of_mem among) inside

/-! ### Roots -/

/-- The root is what the nearest file says that sets it, taken from the directory of that file;
if no file of the chain does, it is the default. -/
structure RootOf (chain : List Layer) (get : Layer → Option Path) (default root : Path) :
    Prop where
  isAbsolute : root.isAbsolute = true
  relative : ∀ before layer behind, chain = before ++ layer :: behind →
    (∀ other ∈ before, get other = none) → ∀ written, layer.WrittenAs written → ∀ path,
      get written = some path → path.isAbsolute = false → root = layer.directory.join path
  origin : (root = default ∧ ∀ layer ∈ chain, get layer = none) ∨
    ∃ layer ∈ chain, ∃ written, layer.WrittenAs written ∧
      ∃ path, get written = some path ∧ root = anchor layer.directory path

theorem rootOf_getD (read : ∀ layer ∈ chain, layer.IsRead) {get : Layer → Option Path}
    (anchors : ∀ (tree : FileTree) (written : Layer),
      get (written.anchored tree) = (get written).map (anchor written.directory))
    {default : Path} (rooted : default.isAbsolute = true) :
    RootOf chain get default ((chain.findSome? get).getD default) := by
  -- The nearest layer that sets the root decides, and a relative one is joined to that layer's
  -- directory.
  have relative : ∀ before layer behind, chain = before ++ layer :: behind →
      (∀ other ∈ before, get other = none) → ∀ written, layer.WrittenAs written → ∀ path,
        get written = some path → path.isAbsolute = false →
          (chain.findSome? get).getD default = layer.directory.join path := by
    intro before layer behind split unset written spelled path set relative
    apply getD_of_nearest
    refine ⟨before, layer, behind, split, ?_, unset⟩
    rw [spelled.get anchors, set, ← anchor_of_relative relative]
    rfl
  cases found : chain.findSome? get with
  | none =>
    have unset : ∀ layer ∈ chain, get layer = none := List.findSome?_eq_none_iff.mp found
    exact ⟨rooted, found ▸ relative, Or.inl ⟨rfl, unset⟩⟩
  | some root =>
    obtain ⟨layer, among, set⟩ := List.exists_of_findSome?_eq_some found
    obtain ⟨written, spelled⟩ := (read layer among).exists_writtenAs
    rw [spelled.get anchors] at set
    obtain ⟨path, there, rfl⟩ := Option.map_eq_some_iff.mp set
    exact ⟨isAbsolute_anchor (read layer among).isAbsolute_directory path, found ▸ relative,
      Or.inr ⟨layer, among, written, spelled, path, there, rfl⟩⟩

/-! ### Whole configurations -/

/-- Where the paths of a configuration come from. -/
structure Anchored (chain : List Layer) (config : EffectiveConfig) : Prop where
  scopes : ∀ scope ∈ config.chain, scope.isAbsolute = true
  sourceRoot : ∃ last, chain.getLast? = some last ∧
    RootOf chain (·.sourceRoot) last.directory config.sourceRoot
  execRoot : RootOf chain (·.execRoot) config.sourceRoot config.execRoot
  toolDirs : Gathers chain (·.toolDirs) config.toolDirs
  libraryDirs : Gathers chain (·.libraryDirs) config.libraryDirs

theorem anchored_flatten (read : ∀ layer ∈ chain, layer.IsRead) (nonempty : chain ≠ []) :
    Anchored chain (flatten chain) := by
  -- The last layer of the chain is its top, whose directory is the root by default.
  obtain ⟨before, last, rfl⟩ := (List.eq_nil_or_concat chain).resolve_left nonempty
  have final : (before.concat last).getLast? = some last := by simp
  have default : defaultRoot (before.concat last) = last.directory := by
    rw [defaultRoot, final]
  have sourceRoot : RootOf (before.concat last) (·.sourceRoot) last.directory
      (flatten (before.concat last)).sourceRoot := by
    rw [flatten, default]
    exact rootOf_getD read (fun _ _ => rfl) (read last (by simp)).isAbsolute_directory
  constructor
  · intro scope member
    obtain ⟨layer, among, rfl⟩ := List.mem_map.mp member
    exact (read layer among).rooted
  · exact ⟨last, final, sourceRoot⟩
  · exact rootOf_getD read (fun _ _ => rfl) sourceRoot.isAbsolute
  · exact gathers_mergeLists read fun _ _ => rfl
  · exact gathers_mergeLists read fun _ _ => rfl

/-- In a cascade of layer files with absolute paths, whatever is resolved has absolute paths only.
What a file writes down as a relative path is there behind the directory of that file, from
whichever layer the setting is asked for, and the working directory has no part in it. -/
theorem paths_stay_with_their_layer {scope : Path}
    (read : ∀ layer ∈ cascade.layers, layer.IsRead)
    (resolved : cascade.resolve scope = .ok config) :
    ∃ chain, cascade.chain scope = .ok chain ∧ Anchored chain config ∧
      ∀ layer ∈ chain, ∀ (tree : FileTree) (place : Place) (source : String),
        Layer.parse (tree.seenFrom place) layer.scope source =
          Layer.parse tree layer.scope source := by
  obtain ⟨chain, followed, rfl⟩ := map_eq_ok resolved
  obtain ⟨first, found, chained, -⟩ := Cascade.chain_eq_ok_iff.mp followed
  have among := chained.mem_layers (Cascade.get?_eq_some found).1
  have read' : ∀ layer ∈ chain, layer.IsRead := fun layer member => read layer (among layer member)
  have nonempty : chain ≠ [] := List.ne_nil_of_mem chained.first_mem
  exact ⟨chain, followed, anchored_flatten read' nonempty,
    fun layer member => (read' layer member).parse_seenFrom⟩

def outerText : String := "exec_root = \"out\"\ntool_dirs = [\"bin\"]\n"

def innerText : String := "parent = \"../litmus.toml\"\n"

/-- A suite with a smaller one inside. -/
def nestedSuite : FileTree where
  entries :=
    [ (["site"], .directory),
      (["site", "litmus.toml"], .file outerText.toUTF8 false),
      (["site", "unit"], .directory),
      (["site", "unit", "litmus.toml"], .file innerText.toUTF8 false) ]

def outerLayer : Layer where
  scope := ⟨"/site/litmus.toml"⟩
  execRoot := some ⟨"/site/out"⟩
  toolDirs := [⟨"/site/bin"⟩]

def innerLayer : Layer where
  scope := ⟨"/site/unit/litmus.toml"⟩
  parent := some ⟨"/site/litmus.toml"⟩

def nestedCascade : Cascade := ⟨[innerLayer, outerLayer]⟩

/-- What the outer suite has is found from the inner one where it is. -/
theorem inner_inherits_outer :
    (∀ layer ∈ nestedCascade.layers, layer.IsRead) ∧
      ∃ config, nestedCascade.resolve innerLayer.scope = .ok config ∧
        config.execRoot = ⟨"/site/out"⟩ ∧
        ∃ directory ∈ config.toolDirs, directory.same ⟨"/site/bin"⟩ = true := by
  have decoded : Layer.decode outerLayer.scope outerText = .ok
      { scope := outerLayer.scope, execRoot := some ⟨"out"⟩, toolDirs := [⟨"bin"⟩] } := by
    decide +kernel
  have parsed : Layer.parse nestedSuite outerLayer.scope outerText = .ok outerLayer := by
    decide +kernel
  have spelled : outerLayer.WrittenAs
      { scope := outerLayer.scope, execRoot := some ⟨"out"⟩, toolDirs := [⟨"bin"⟩] } :=
    ⟨nestedSuite, outerText, decoded, parsed⟩
  have parsed' : Layer.parse nestedSuite innerLayer.scope innerText = .ok innerLayer := by
    decide +kernel
  have read : ∀ layer ∈ nestedCascade.layers, layer.IsRead := by
    simp only [nestedCascade, List.forall_mem_cons]
    exact ⟨⟨by decide, by decide, nestedSuite, innerText, parsed'⟩,
      ⟨by decide, by decide, nestedSuite, outerText, parsed⟩, List.forall_mem_nil _⟩
  have followed : nestedCascade.chain innerLayer.scope = .ok [innerLayer, outerLayer] := by
    decide +kernel
  have resolved : nestedCascade.resolve innerLayer.scope =
      .ok (flatten [innerLayer, outerLayer]) := by
    rw [Cascade.resolve, followed, Except.map]
  obtain ⟨chain, followed', anchored, -⟩ := paths_stay_with_their_layer read resolved
  cases followed.symm.trans followed'
  refine ⟨read, _, resolved, ?_, ?_⟩
  · exact anchored.execRoot.relative [innerLayer] outerLayer [] rfl (by decide) _ spelled
      ⟨"out"⟩ rfl (by decide)
  · exact anchored.toolDirs.relative outerLayer (by simp) _ spelled ⟨"bin"⟩ (by simp) (by decide)

end Config

end SuiteRunner
