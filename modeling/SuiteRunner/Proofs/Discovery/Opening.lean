import SuiteRunner.Discovery.Walk
import SuiteRunner.Proofs.Config.Inheritance
import SuiteRunner.Proofs.Except
import SuiteRunner.Proofs.Ordered

/-!
# Opening directories

Opening a directory enters it: the layer in its local layer file, if it has one, inherits
from the layer in effect around. In a walk that has entered fewer directories the same
directory opens with the same configuration, unless an open layer of its chain lies in a
directory that was left out.
-/

namespace SuiteRunner.Discovery

open Config Files

variable {tree : FileTree} {path scope : Path} {place : Place} {config : EffectiveConfig}
  {cascade after : Cascade}

/-! ### What opening does -/

theorem applyLocalLayer_of_none (missing : tree.isFile (path.child localLayerFile) = false) :
    applyLocalLayer tree path scope config cascade = .ok (scope, config, cascade) := by
  simp only [applyLocalLayer, missing, Bool.false_eq_true, if_false]

theorem applyLocalLayer_eq_ok_iff {scope' : Path} {config' : EffectiveConfig}
    (isFile : tree.isFile (path.child localLayerFile) = true) :
    applyLocalLayer tree path scope config cascade = .ok (scope', config', after) ↔
      ∃ layer, loadLayer tree (path.child localLayerFile) = .ok layer ∧ scope' = layer.scope ∧
        loadParent tree (cascade.insert (withParent layer scope)) (layer.parent.getD scope) =
          .ok after ∧
        after.resolve scope' = .ok config' ∧ checkRequiredTools tree config' = .ok () := by
  simp only [applyLocalLayer, isFile, if_true]
  constructor
  · intro applied
    obtain ⟨layer, loaded, applied⟩ := bind_eq_ok applied
    obtain ⟨cascade', parents, applied⟩ := bind_eq_ok applied
    obtain ⟨config'', resolved, applied⟩ := bind_eq_ok applied
    obtain ⟨⟨⟩, checked, applied⟩ := bind_eq_ok applied
    cases applied
    exact ⟨layer, loaded, rfl, parents, resolved, checked⟩
  · rintro ⟨layer, loaded, rfl, parents, resolved, checked⟩
    have parents' : loadParent tree (cascade.insert (withParent layer scope))
        ((withParent layer scope).parent.getD scope) = .ok after := parents
    have resolved' : after.resolve (withParent layer scope).scope = .ok config' := resolved
    simp only [loaded, parents', resolved', checked, bind, Except.bind]
    rfl

theorem openDirectory_eq_ok_iff {inner : Directory} :
    openDirectory tree path scope config cascade = .ok (inner, after) ↔
      ∃ scope' config' names, applyLocalLayer tree path scope config cascade =
          .ok (scope', config', after) ∧
        tree.names path = .ok names ∧ inner = ⟨path, visibleNames names, scope', config'⟩ := by
  unfold openDirectory
  constructor
  · intro opened
    obtain ⟨⟨scope', config', cascade'⟩, applied, opened⟩ := bind_eq_ok opened
    dsimp only at opened
    split at opened
    next => cases opened
    next names listed =>
      cases opened
      exact ⟨scope', config', names, applied, listed, rfl⟩
  · rintro ⟨scope', config', names, applied, listed, rfl⟩
    simp only [applied, listed, bind, Except.bind]

theorem openDirectory_path {inner : Directory}
    (opened : openDirectory tree path scope config cascade = .ok (inner, after)) :
    inner.path = path := by
  obtain ⟨scope', config', names, -, -, rfl⟩ := openDirectory_eq_ok_iff.mp opened
  rfl

/-! ### Canonical directories -/

/-- A directory under its canonical path, whose entries are named and whose layer was loaded
from a file. -/
structure Directory.Canonical (directory : Directory) (tree : FileTree) : Prop where
  leads : ∃ place, tree.Leads directory.path place
  named : ∀ name ∈ directory.names, IsName name
  held : tree.HoldsFile directory.scope

theorem isName_localLayerFile : IsName localLayerFile := by
  constructor <;> decide

theorem mem_visibleNames {names : List String} {name : String} :
    name ∈ visibleNames names ↔ name ∈ names ∧ isVisible name = true := by
  rw [visibleNames, Ordered.mem_insertAll, List.mem_filter, or_iff_right List.not_mem_nil]

theorem increasing_visibleNames (names : List String) : (visibleNames names).Pairwise (· < ·) :=
  Ordered.increasing_insertAll _ List.Pairwise.nil

theorem isName_of_mem_visibleNames {names : List String} (named : ∀ name ∈ names, IsName name) :
    ∀ name ∈ visibleNames names, IsName name :=
  fun name member => named name (mem_visibleNames.mp member).1

theorem holdsFile_localLayer (plain : tree.Plain) (leads : tree.Leads path place)
    (isFile : tree.isFile (path.child localLayerFile) = true) :
    tree.HoldsFile (path.child localLayerFile) := by
  obtain ⟨content, executable, found⟩ := FileTree.isFile_iff.mp isFile
  obtain ⟨leads', stands⟩ := leads.child plain isName_localLayerFile found
  exact ⟨_, content, executable, leads', stands⟩

theorem directoryOf_localLayer (leads : tree.Leads path place) :
    directoryOf (path.child localLayerFile) = path := by
  rw [directoryOf, leads.parent?_child isName_localLayerFile, Option.getD_some]

/-! ### Loading parents -/

theorem withParent_eq (layer : Layer) (scope : Path) :
    withParent layer scope = { layer with parent := layer.parent.or (some scope) } := by
  cases named : layer.parent <;> simp [withParent, named]

theorem loadParent_of_contains (known : cascade.contains scope = true) :
    loadParent tree cascade scope = .ok cascade := by
  rw [loadParent, known]
  rfl

theorem contains_of_chain {chain : List Layer} (followed : cascade.chain scope = .ok chain) :
    cascade.contains scope = true := by
  obtain ⟨first, found, -⟩ := Cascade.chain_eq_ok_iff.mp followed
  exact Cascade.contains_iff.mpr ⟨first, found⟩

section Parents

variable {around : Path → Option Path} {parent : Path}

theorem loadParent_settled (plain : tree.Plain) (spelled : parentsWellSpelled tree = true)
    (tracks : cascade.Tracks tree around) (closed : cascade.ClosedBut tree parent)
    (holds : tree.isFile parent = true → tree.HoldsFile parent)
    (loaded : loadParent tree cascade parent = .ok after) :
    after.Settled tree around ∧ (tree.isFile parent = true → after.contains parent = true) ∧
      cascade.Within after := by
  unfold loadParent at loaded
  split at loaded
  next missing =>
    rw [Bool.and_eq_true] at missing
    have holds := holds missing.2
    split at loaded
    next loaded' found ended =>
      cases loaded
      -- The parent is loaded, together with whatever it inherits from.
      have closed' : cascade.ClosedBut tree (tree.key parent) := by rwa [holds.key]
      obtain ⟨same, settled, known, grows⟩ :=
        Cascade.load_settled plain spelled tracks closed' (holds.key.symm ▸ holds) ended
      rw [same, holds.key] at known
      exact ⟨settled, fun _ => known, grows⟩
    next => cases loaded
  next present =>
    cases loaded
    have known : tree.isFile parent = true → cascade.contains parent = true := by
      intro isFile
      simpa [isFile] using present
    refine ⟨⟨tracks, ?_⟩, known, .refl _⟩
    intro layer member parent' named isFile
    rcases closed layer member parent' named isFile with known' | rfl
    · exact known'
    · exact known isFile

theorem loadParent_within (plain : tree.Plain) (spelled : parentsWellSpelled tree = true)
    {full : Cascade} (settled : full.Settled tree around)
    (within : cascade.Within full) (holds : tree.isFile parent = true → tree.HoldsFile parent)
    (known : tree.isFile parent = true → full.contains parent = true) :
    ∃ after, loadParent tree cascade parent = .ok after ∧ after.Within full := by
  unfold loadParent
  split
  next missing =>
    rw [Bool.and_eq_true] at missing
    obtain ⟨after, ended, within'⟩ := Cascade.load_within plain spelled settled within
      (holds missing.2) (known missing.2)
    exact ⟨after, by rw [ended], within'⟩
  next => exact ⟨cascade, rfl, within⟩

end Parents

/-! ### Entering a directory -/

/-- What lies around layer files once a directory has been entered. -/
def entered (tree : FileTree) (path scope : Path) (around : Path → Option Path) :
    Path → Option Path :=
  if tree.isFile (path.child localLayerFile) then
    Function.update around (path.child localLayerFile) (some scope)
  else around

theorem entered_of_elsewhere {around : Path → Option Path} (leads : tree.Leads path place)
    {other : Path} (elsewhere : directoryOf other ≠ path) :
    entered tree path scope around other = around other := by
  unfold entered
  split
  next =>
    refine Function.update_of_ne ?_ _ _
    rintro rfl
    exact elsewhere (directoryOf_localLayer leads)
  next => rfl

theorem entered_within {around : Path → Option Path} {kept : Path → Bool}
    (leads : tree.Leads path place) (inside : kept path = true)
    (within : ∀ other, around other ≠ none → kept (directoryOf other) = true) :
    ∀ other, entered tree path scope around other ≠ none → kept (directoryOf other) = true := by
  intro other met
  by_cases here : directoryOf other = path
  · rwa [here]
  · rw [entered_of_elsewhere leads here] at met
    exact within other met

theorem restrictTo_entered {around : Path → Option Path} {kept : Path → Bool}
    (leads : tree.Leads path place) (inside : kept path = true) :
    restrictTo kept (entered tree path scope around) =
      entered tree path scope (restrictTo kept around) := by
  unfold entered
  split
  next =>
    funext other
    by_cases here : other = path.child localLayerFile
    · rw [here, restrictTo, directoryOf_localLayer leads, if_pos inside, Function.update_self,
        Function.update_self]
    · rw [restrictTo, Function.update_of_ne here, Function.update_of_ne here, restrictTo]
  next => rfl

theorem restrictTo_entered_of_outside {around : Path → Option Path} {kept : Path → Bool}
    (leads : tree.Leads path place) (outside : kept path = false) :
    restrictTo kept (entered tree path scope around) = restrictTo kept around := by
  funext other
  by_cases here : directoryOf other = path
  · rw [restrictTo, restrictTo, here, outside]
    rfl
  · rw [restrictTo, restrictTo, entered_of_elsewhere leads here]

section Layers

variable {around : Path → Option Path}

/-- The local layer of a directory, inserted but without its parents. -/
theorem insert_localLayer (plain : tree.Plain) (spelled : parentsWellSpelled tree = true)
    (leads : tree.Leads path place) (settled : cascade.Settled tree around)
    (outer : tree.HoldsFile scope) {layer : Layer}
    (isFile : tree.isFile (path.child localLayerFile) = true)
    (loaded : loadLayer tree (path.child localLayerFile) = .ok layer) :
    (cascade.insert (withParent layer scope)).Tracks tree (entered tree path scope around) ∧
      (cascade.insert (withParent layer scope)).ClosedBut tree (layer.parent.getD scope) ∧
      (tree.isFile (layer.parent.getD scope) = true →
        tree.HoldsFile (layer.parent.getD scope)) := by
  have holds := holdsFile_localLayer plain leads isFile
  refine ⟨?_, ?_, ?_⟩
  · rw [withParent_eq, entered, if_pos isFile]
    exact settled.tracks.insert_walked holds loaded outer
  -- The new layer may lack its parent, all others have theirs.
  · intro other member parent named isFile
    rcases Cascade.mem_insert member with rfl | ⟨known, -⟩
    · cases named
      exact Or.inr rfl
    · left
      rw [Cascade.contains_insert, settled.closed other known parent named isFile, Bool.or_true]
  · intro isFile'
    cases written : layer.parent with
    | none => exact outer
    | some parent =>
      rw [written] at isFile'
      exact holdsFile_of_wellSpelled plain
        (wellSpelled_of_loadLayer spelled holds loaded written) isFile'

/-- A directory is opened in a cascade that stays settled. -/
theorem applyLocalLayer_settled (plain : tree.Plain) (spelled : parentsWellSpelled tree = true)
    (leads : tree.Leads path place) (settled : cascade.Settled tree around)
    (outer : tree.HoldsFile scope) {scope' : Path} {config' : EffectiveConfig}
    (applied : applyLocalLayer tree path scope config cascade = .ok (scope', config', after)) :
    after.Settled tree (entered tree path scope around) ∧ tree.HoldsFile scope' ∧
      cascade.Within after ∧
      (config' = config ∨ after.resolve scope' = .ok config') := by
  cases isFile : tree.isFile (path.child localLayerFile) with
  | false =>
    rw [applyLocalLayer_of_none isFile] at applied
    cases applied
    rw [entered, if_neg (by simp [isFile])]
    exact ⟨settled, outer, .refl _, Or.inl rfl⟩
  | true =>
    obtain ⟨layer, loaded, rfl, parents, resolved, -⟩ :=
      (applyLocalLayer_eq_ok_iff isFile).mp applied
    have holds := holdsFile_localLayer plain leads isFile
    obtain ⟨tracks, closed, holds'⟩ :=
      insert_localLayer plain spelled leads settled outer isFile loaded
    obtain ⟨settled', -, grows⟩ := loadParent_settled plain spelled tracks closed holds' parents
    refine ⟨settled', ?_, (Cascade.Within.insert _ _).trans grows, Or.inr resolved⟩
    rwa [(read_of_loadLayer loaded).1, holds.key]

/-- A walk that has entered fewer directories applies the same local layer. -/
theorem applyLocalLayer_follows (plain : tree.Plain) (spelled : parentsWellSpelled tree = true)
    {kept : Path → Bool} {full full' : Cascade} (leads : tree.Leads path place)
    (inside : kept path = true) (settled : full.Settled tree around)
    (settled' : cascade.Settled tree (restrictTo kept around))
    (within : cascade.Within full)
    (outer : tree.HoldsFile scope) {scope' : Path} {config' : EffectiveConfig}
    (applied : applyLocalLayer tree path scope config full = .ok (scope', config', full'))
    (supported : ClosedIn tree kept config'.chain) :
    ∃ after, applyLocalLayer tree path scope config cascade = .ok (scope', config', after) ∧
      after.Settled tree (restrictTo kept (entered tree path scope around)) ∧
      after.Within full' := by
  cases isFile : tree.isFile (path.child localLayerFile) with
  | false =>
    rw [applyLocalLayer_of_none isFile] at applied
    cases applied
    refine ⟨cascade, applyLocalLayer_of_none isFile, ?_, within⟩
    rwa [entered, if_neg (by simp [isFile])]
  | true =>
    obtain ⟨layer, loaded, rfl, parents, resolved, checked⟩ :=
      (applyLocalLayer_eq_ok_iff isFile).mp applied
    have holds := holdsFile_localLayer plain leads isFile
    have holdsScope : tree.HoldsFile layer.scope := by
      rwa [(read_of_loadLayer loaded).1, holds.key]
    obtain ⟨tracks, closed, holds'⟩ :=
      insert_localLayer plain spelled leads settled outer isFile loaded
    obtain ⟨settledFull, knownFull, growsFull⟩ :=
      loadParent_settled plain spelled tracks closed holds' parents
    obtain ⟨tracks', closed', -⟩ :=
      insert_localLayer plain spelled leads settled' outer isFile loaded
    -- Whatever is inserted or loaded, the other walk has it as well.
    have within' : (cascade.insert (withParent layer scope)).Within full' :=
      (within.trans ((Cascade.Within.insert _ _).trans growsFull)).insert_of_contains
        (growsFull _ Cascade.contains_insert_self)
    obtain ⟨after, parents', within''⟩ :=
      loadParent_within plain spelled settledFull within' holds' knownFull
    obtain ⟨settledAfter, -, grows⟩ :=
      loadParent_settled plain spelled tracks' closed' holds' parents'
    rw [← restrictTo_entered leads inside] at settledAfter
    -- The chain is the same in both cascades, and the configuration with it.
    obtain ⟨chain, followed, rfl⟩ := map_eq_ok resolved
    have known : after.contains layer.scope = true := grows _ Cascade.contains_insert_self
    have followed' := settledFull.tracks.chain_restrict spelled settledAfter holdsScope known
      followed supported
    refine ⟨after, (applyLocalLayer_eq_ok_iff isFile).mpr ?_, settledAfter, within''⟩
    refine ⟨layer, loaded, rfl, parents', ?_, checked⟩
    rw [Cascade.resolve, followed']
    rfl

variable {inner : Directory}

theorem openDirectory_settled (plain : tree.Plain) (spelled : parentsWellSpelled tree = true)
    (leads : tree.Leads path place) (settled : cascade.Settled tree around)
    (outer : tree.HoldsFile scope)
    (opened : openDirectory tree path scope config cascade = .ok (inner, after)) :
    inner.Canonical tree ∧ cascade.Within after ∧
      after.Settled tree (entered tree path scope around) := by
  obtain ⟨scope', config', names, applied, listed, rfl⟩ := openDirectory_eq_ok_iff.mp opened
  obtain ⟨settled', held, grows, -⟩ :=
    applyLocalLayer_settled plain spelled leads settled outer applied
  have named := isName_of_mem_visibleNames (plain.named.isName_of_mem_names listed)
  exact ⟨⟨⟨place, leads⟩, named, held⟩, grows, settled'⟩

/-- All open layers that the configuration of a directory inherits through lie in directories
that have been entered. -/
theorem openDirectory_closedIn (plain : tree.Plain) (spelled : parentsWellSpelled tree = true)
    {kept : Path → Bool} (leads : tree.Leads path place) (settled : cascade.Settled tree around)
    (outer : tree.HoldsFile scope) (supported : ClosedIn tree kept config.chain)
    (within : ∀ other, entered tree path scope around other ≠ none →
      kept (directoryOf other) = true)
    (opened : openDirectory tree path scope config cascade = .ok (inner, after)) :
    ClosedIn tree kept inner.config.chain := by
  obtain ⟨scope', config', names, applied, listed, rfl⟩ := openDirectory_eq_ok_iff.mp opened
  obtain ⟨settled', held, -, rfl | resolved⟩ :=
    applyLocalLayer_settled plain spelled leads settled outer applied
  · exact supported
  · obtain ⟨chain, followed, rfl⟩ := map_eq_ok resolved
    exact settled'.tracks.closedIn within followed

theorem openDirectory_follows (plain : tree.Plain) (spelled : parentsWellSpelled tree = true)
    {kept : Path → Bool} {full full' : Cascade} (leads : tree.Leads path place)
    (inside : kept path = true) (settled : full.Settled tree around)
    (settled' : cascade.Settled tree (restrictTo kept around)) (within : cascade.Within full)
    (outer : tree.HoldsFile scope)
    (opened : openDirectory tree path scope config full = .ok (inner, full'))
    (supported : ClosedIn tree kept inner.config.chain) :
    ∃ after, openDirectory tree path scope config cascade = .ok (inner, after) ∧
      after.Settled tree (restrictTo kept (entered tree path scope around)) ∧
      after.Within full' := by
  obtain ⟨scope', config', names, applied, listed, rfl⟩ := openDirectory_eq_ok_iff.mp opened
  obtain ⟨after, applied', settledAfter, within'⟩ := applyLocalLayer_follows plain spelled leads
    inside settled settled' within outer applied supported
  refine ⟨after, openDirectory_eq_ok_iff.mpr ?_, settledAfter, within'⟩
  exact ⟨scope', config', names, applied', listed, rfl⟩

end Layers

end SuiteRunner.Discovery
