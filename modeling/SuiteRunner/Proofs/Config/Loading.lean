import Mathlib.Logic.Function.Basic
import Mathlib.Tactic.ByContra
import SuiteRunner.Config.Load
import SuiteRunner.Proofs.Config.Chain
import SuiteRunner.Proofs.Config.Keys
import SuiteRunner.Proofs.Files.Plain

/-!
# Loading layers in a tree without links

A cascade shows layer files: a layer has the parent that its file names, and if it names
none, the layer that was in effect around its directory when a walk entered it, or none
if no walk has. Loading keeps that, and afterwards every parent that is a file has been
loaded. It loads nothing that a larger cascade of this kind does not have.
-/

namespace SuiteRunner

open Files

/-! ### Layer files -/

/-- A canonical path that leads to a file. -/
def Files.FileTree.HoldsFile (tree : FileTree) (path : Path) : Prop :=
  ∃ place content executable, tree.Leads path place ∧
    tree.entry? place = some (.file content executable)

namespace Files.FileTree.HoldsFile

variable {tree : FileTree} {path other : Path}

theorem key (holds : tree.HoldsFile path) : tree.key path = path := by
  obtain ⟨place, content, executable, leads, stands⟩ := holds
  exact leads.key

theorem isFile (holds : tree.HoldsFile path) : tree.isFile path = true := by
  obtain ⟨place, content, executable, leads, stands⟩ := holds
  exact isFile_iff.mpr ⟨content, executable, leads.find.mpr stands⟩

theorem eq_of_same (holds : tree.HoldsFile path) (holds' : tree.HoldsFile other)
    (same : path.same other = true) : path = other := by
  obtain ⟨place, content, executable, leads, stands⟩ := holds
  obtain ⟨place', content', executable', leads', stands'⟩ := holds'
  exact leads.eq_of_same leads' same

/-- The identity of a file, if it can be followed itself. -/
theorem of_isFile (plain : tree.Plain) (isFile : tree.isFile path = true) {entry : Entry}
    (again : tree.find (tree.key path) = .ok entry) : tree.HoldsFile (tree.key path) := by
  obtain ⟨content, executable, found⟩ := isFile_iff.mp isFile
  obtain ⟨place, leads, stands⟩ := Leads.of_key plain found again
  exact ⟨place, content, executable, leads, stands⟩

/-- Every file is listed in the tree under the place that its path is the path of. -/
theorem exists_mem (holds : tree.HoldsFile path) :
    ∃ place entry, (place, entry) ∈ tree.entries ∧ path = Place.path place := by
  obtain ⟨place, content, executable, leads, stands⟩ := holds
  have nonempty : place ≠ [] := by
    rintro rfl
    cases stands
  exact ⟨place, _, Plain.mem_entries nonempty stands, leads.written⟩

end Files.FileTree.HoldsFile

namespace Config

variable {tree : FileTree}

theorem read_of_loadLayer {path : Path} {layer : Layer}
    (loaded : loadLayer tree path = .ok layer) :
    layer.scope = tree.key path ∧ ∃ content, tree.read (tree.key path) = .ok content := by
  unfold loadLayer at loaded
  dsimp only at loaded
  split at loaded
  next => cases loaded
  next content read =>
    split at loaded
    next => cases loaded
    next source decoded => exact ⟨Layer.scope_of_parse loaded, content, read⟩

/-- A layer names its parent by an identity. -/
theorem exists_key_of_loadLayer {path parent : Path} {layer : Layer}
    (loaded : loadLayer tree path = .ok layer) (named : layer.parent = some parent) :
    ∃ written, parent = tree.key written := by
  unfold loadLayer at loaded
  dsimp only at loaded
  split at loaded
  next => cases loaded
  next =>
    split at loaded
    next => cases loaded
    next =>
      obtain ⟨written, -, rfl⟩ := Layer.exists_of_parse loaded
      obtain ⟨path, -, rfl⟩ := Option.map_eq_some_iff.mp named
      exact ⟨_, rfl⟩

theorem loadLayer_congr {path other : Path} (same : tree.key path = tree.key other) :
    loadLayer tree path = loadLayer tree other := by
  unfold loadLayer
  rw [same]

/-- A parent is a file by its canonical path, or it has not the components of any file, as it
would with a slash behind the name. -/
def wellSpelled (tree : FileTree) (parent : Path) : Bool :=
  if tree.isFile parent then tree.key parent == parent
  else tree.entries.all fun (place, _) =>
    !(tree.isFile (Place.path place) && (Place.path place).same parent)

/-- All layer files name their parents in such a way. -/
def parentsWellSpelled (tree : FileTree) : Bool :=
  tree.entries.all fun (place, _) =>
    match loadLayer tree (Place.path place) with
    | .ok layer => layer.parent.all (wellSpelled tree)
    | .error _ => true

theorem wellSpelled_of_loadLayer (spelled : parentsWellSpelled tree = true) {scope parent : Path}
    (holds : tree.HoldsFile scope) {layer : Layer} (loaded : loadLayer tree scope = .ok layer)
    (named : layer.parent = some parent) : wellSpelled tree parent = true := by
  obtain ⟨place, entry, member, rfl⟩ := holds.exists_mem
  have checked := List.all_eq_true.mp spelled _ member
  simp only [loaded, named, Option.all_some] at checked
  exact checked

theorem holdsFile_of_wellSpelled (plain : tree.Plain) {parent : Path}
    (spelled : wellSpelled tree parent = true) (isFile : tree.isFile parent = true) :
    tree.HoldsFile parent := by
  rw [wellSpelled, if_pos isFile, beq_iff_eq] at spelled
  obtain ⟨content, executable, found⟩ := FileTree.isFile_iff.mp isFile
  have again : tree.find (tree.key parent) = .ok (.file content executable) := by
    rw [spelled]
    exact found
  rw [← spelled]
  exact .of_isFile plain isFile again

theorem isFile_of_wellSpelled {scope parent : Path} (spelled : wellSpelled tree parent = true)
    (holds : tree.HoldsFile scope) (same : scope.same parent = true) :
    tree.isFile parent = true := by
  by_contra noFile
  rw [wellSpelled, if_neg noFile] at spelled
  have isFile := holds.isFile
  obtain ⟨place, entry, member, rfl⟩ := holds.exists_mem
  have different := List.all_eq_true.mp spelled _ member
  simp [isFile, same] at different

/-- A parent that is the entry once more is a file, like every other that is followed. -/
theorem isFollowed_eq_isFile {entry parent : Path} (spelled : wellSpelled tree parent = true)
    (holds : tree.HoldsFile entry) :
    isFollowed tree entry parent = tree.isFile parent := by
  rw [isFollowed, Bool.or_eq_right_iff_imp]
  exact isFile_of_wellSpelled spelled holds

/-! ### Adding layers -/

namespace Cascade

variable {cascade : Cascade} {scope : Path} {layer other : Layer}

theorem mem_insert (member : other ∈ (cascade.insert layer).layers) :
    other = layer ∨ other ∈ cascade.layers ∧ other.scope.same layer.scope = false := by
  rcases List.mem_cons.mp member with same | kept
  · exact Or.inl same
  · obtain ⟨found, different⟩ := List.mem_filter.mp kept
    exact Or.inr ⟨found, by simpa using different⟩

theorem contains_insert :
    (cascade.insert layer).contains scope = (layer.scope.same scope || cascade.contains scope) := by
  rw [contains, get?_insert, contains]
  split
  next same => simp [same]
  next other => simp [other]

theorem contains_insert_self : (cascade.insert layer).contains layer.scope = true := by
  rw [contains_insert, Path.same_iff.mpr rfl, Bool.true_or]

theorem get?_congr {scope' : Path} (same : scope.same scope' = true) :
    cascade.get? scope = cascade.get? scope' := by
  rw [Path.same_iff] at same
  simp only [get?, Path.same, same]

theorem contains_congr {scope' : Path} (same : scope.same scope' = true) :
    cascade.contains scope = cascade.contains scope' := by
  rw [contains, contains, get?_congr same]

/-- Every scope of one cascade is found in the other. -/
def Within (cascade full : Cascade) : Prop :=
  ∀ scope, cascade.contains scope = true → full.contains scope = true

namespace Within

variable {full after : Cascade}

theorem refl (cascade : Cascade) : cascade.Within cascade := fun _ known => known

theorem trans (within : cascade.Within full) (within' : full.Within after) :
    cascade.Within after := fun scope known => within' scope (within scope known)

theorem insert (cascade : Cascade) (layer : Layer) : cascade.Within (cascade.insert layer) := by
  intro scope known
  rw [contains_insert, known, Bool.or_true]

/-- What is inserted may be found in the larger cascade already. -/
theorem insert_of_contains (within : cascade.Within full)
    (known : full.contains layer.scope = true) : (cascade.insert layer).Within full := by
  intro scope found
  rw [contains_insert, Bool.or_eq_true] at found
  rcases found with here | found
  · rwa [← contains_congr here]
  · exact within scope found

end Within

end Cascade

/-! ### What a cascade shows -/

/-- The layer of a file, inheriting from the layer around it if it names no parent itself. -/
def view (tree : FileTree) (around : Path → Option Path) (scope : Path) : Except Error Layer :=
  (loadLayer tree scope).map fun layer =>
    { layer with parent := layer.parent.or (around scope) }

/-- A cascade shows layer files; `around` gives for those whose directories a walk has entered
the layer that was in effect around the directory. -/
structure Cascade.Tracks (cascade : Cascade) (tree : FileTree) (around : Path → Option Path) :
    Prop where
  held : ∀ layer ∈ cascade.layers, tree.HoldsFile layer.scope
  shown : ∀ layer ∈ cascade.layers, view tree around layer.scope = .ok layer
  walked : ∀ scope parent, around scope = some parent →
    cascade.contains scope = true ∧ tree.HoldsFile parent

/-- Every parent that is a file has been loaded, or it is `pending`. -/
def Cascade.ClosedBut (cascade : Cascade) (tree : FileTree) (pending : Path) : Prop :=
  ∀ layer ∈ cascade.layers, ∀ parent, layer.parent = some parent → tree.isFile parent = true →
    cascade.contains parent = true ∨ parent = pending

/-- Every parent that is a file has been loaded. -/
def Cascade.Closed (cascade : Cascade) (tree : FileTree) : Prop :=
  ∀ layer ∈ cascade.layers, ∀ parent, layer.parent = some parent → tree.isFile parent = true →
    cascade.contains parent = true

/-- A cascade between two steps of a walk. -/
structure Cascade.Settled (cascade : Cascade) (tree : FileTree) (around : Path → Option Path) :
    Prop where
  tracks : cascade.Tracks tree around
  closed : cascade.Closed tree

theorem exists_of_view {around : Path → Option Path} {scope : Path} {layer : Layer}
    (shown : view tree around scope = .ok layer) :
    ∃ file, loadLayer tree scope = .ok file ∧ layer = { file with parent := layer.parent } ∧
      layer.parent = file.parent.or (around scope) := by
  obtain ⟨file, loaded, rfl⟩ := map_eq_ok shown
  exact ⟨file, loaded, rfl, rfl⟩

namespace Cascade.Tracks

variable {cascade : Cascade} {around : Path → Option Path} {scope : Path} {layer : Layer}

/-- What is found under the canonical path of a file is the layer of that file. -/
theorem scope_of_get? (tracks : cascade.Tracks tree around) (holds : tree.HoldsFile scope)
    (found : cascade.get? scope = some layer) : layer ∈ cascade.layers ∧ layer.scope = scope := by
  obtain ⟨member, same⟩ := get?_eq_some found
  exact ⟨member, (tracks.held layer member).eq_of_same holds same⟩

/-- Load a layer file that no walk has met. -/
theorem insert (tracks : cascade.Tracks tree around) (holds : tree.HoldsFile scope)
    (loaded : loadLayer tree scope = .ok layer) (absent : cascade.contains scope = false) :
    (cascade.insert layer).Tracks tree around := by
  have same : layer.scope = scope := (read_of_loadLayer loaded).1.trans holds.key
  -- No walk has met the file, or else it would have been loaded.
  have unmet : around scope = none := by
    cases met : around scope with
    | none => rfl
    | some parent =>
      rw [(tracks.walked scope parent met).1] at absent
      cases absent
  refine ⟨?_, ?_, ?_⟩
  · intro other member
    rcases mem_insert member with rfl | ⟨member, -⟩
    · rwa [same]
    · exact tracks.held other member
  · intro other member
    rcases mem_insert member with rfl | ⟨member, -⟩
    · rw [same, view, loaded, unmet]
      simp [Except.map]
    · exact tracks.shown other member
  · intro other parent met
    obtain ⟨known, holds⟩ := tracks.walked other parent met
    exact ⟨by rw [contains_insert, known, Bool.or_true], holds⟩

/-- Apply a layer file whose directory a walk enters. -/
theorem insert_walked (tracks : cascade.Tracks tree around) (holds : tree.HoldsFile scope)
    (loaded : loadLayer tree scope = .ok layer) {outer : Path} (outerHolds : tree.HoldsFile outer) :
    (cascade.insert { layer with parent := layer.parent.or (some outer) }).Tracks tree
      (Function.update around scope (some outer)) := by
  -- The layer that comes in is the one of this scope, so what the walk is told of any other scope
  -- stays as it was.
  have same : layer.scope = scope := (read_of_loadLayer loaded).1.trans holds.key
  refine ⟨?_, ?_, ?_⟩
  · intro other member
    rcases mem_insert member with rfl | ⟨member, -⟩
    · exact same ▸ holds
    · exact tracks.held other member
  · intro other member
    rcases mem_insert member with rfl | ⟨member, different⟩
    · simp only [same, view, loaded, Function.update_self, Except.map]
    · -- The layer that was there under this scope has been replaced.
      have elsewhere : other.scope ≠ scope := by
        rintro equal
        rw [equal, ← same, Path.same_iff.mpr rfl] at different
        cases different
      rw [view, Function.update_of_ne elsewhere]
      exact tracks.shown other member
  · intro other parent met
    rw [contains_insert]
    by_cases here : other = scope
    · subst here
      rw [Function.update_self] at met
      cases met
      exact ⟨by simp [same, Path.same_iff], outerHolds⟩
    · rw [Function.update_of_ne here] at met
      obtain ⟨known, holds⟩ := tracks.walked other parent met
      exact ⟨by rw [known, Bool.or_true], holds⟩

end Cascade.Tracks

/-! ### Loading a chain -/

theorem countP_lt {α : Type} {p q : α → Bool} {items : List α}
    (imp : ∀ item ∈ items, p item = true → q item = true) {item : α} (member : item ∈ items)
    (left : p item = false) (right : q item = true) : items.countP p < items.countP q := by
  induction items with
  | nil => cases member
  | cons head items ih =>
    -- The item is the first one, which counts on one side only, or one of those behind, where there
    -- are fewer already.
    have imp' := fun item member => imp item (List.mem_cons_of_mem _ member)
    rw [List.countP_cons, List.countP_cons]
    rcases List.mem_cons.mp member with rfl | member
    · have smaller := List.countP_mono_left imp'
      simp [left, right]
      omega
    · have smaller := ih imp' member
      have first := imp head List.mem_cons_self
      cases holds : p head with
      | true =>
        rw [if_pos rfl, if_pos (first holds)]
        omega
      | false =>
        rw [if_neg Bool.false_ne_true]
        omega

/-- How many entries of the tree are not the files of loaded layers. -/
def Cascade.unloaded (cascade : Cascade) (tree : FileTree) : Nat :=
  tree.entries.countP fun (place, _) => !cascade.contains (Place.path place)

theorem Cascade.unloaded_insert_lt {cascade : Cascade} {layer : Layer}
    (listed : ∃ place entry, (place, entry) ∈ tree.entries ∧ layer.scope = Place.path place)
    (absent : cascade.contains layer.scope = false) :
    (cascade.insert layer).unloaded tree < cascade.unloaded tree := by
  obtain ⟨place, entry, member, same⟩ := listed
  -- What is unloaded afterwards was unloaded before, and the inserted file no longer is.
  refine countP_lt ?_ member ?_ ?_
  · rintro ⟨other, _⟩ _ remaining
    dsimp only at remaining ⊢
    rw [contains_insert, Bool.not_or, Bool.and_eq_true] at remaining
    exact remaining.2
  · dsimp only
    rw [contains_insert, ← same, Path.same_iff.mpr rfl]
    rfl
  · dsimp only
    rw [← same, absent]
    rfl

namespace Cascade

variable {cascade after : Cascade} {around : Path → Option Path} {entry scope : Path}

attribute [local irreducible] loadLayer in
theorem loadFrom_succ (cascade : Cascade) (tree : FileTree) (entry scope : Path) (fuel : Nat) :
    loadFrom tree entry scope (fuel + 1) cascade =
      if cascade.contains scope then (cascade, none)
      else
        match loadLayer tree scope with
        | .error error => (cascade, some error)
        | .ok layer =>
          match layer.parent with
          | none => (cascade.insert layer, none)
          | some parent =>
            if isFollowed tree entry parent then
              loadFrom tree entry parent fuel (cascade.insert layer)
            else (cascade.insert layer, none) :=
  rfl

/-- A layer file is loaded together with all its parents that are files and not loaded yet. -/
theorem loadFrom_settled (plain : tree.Plain) (spelled : parentsWellSpelled tree = true)
    {fuel : Nat} (tracks : cascade.Tracks tree around) (closed : cascade.ClosedBut tree scope)
    (entryHolds : tree.HoldsFile entry) (holds : tree.HoldsFile scope)
    (enough : cascade.unloaded tree < fuel)
    (loaded : loadFrom tree entry scope fuel cascade = (after, none)) :
    after.Settled tree around ∧ after.contains scope = true ∧ cascade.Within after := by
  induction fuel generalizing cascade scope with
  | zero => exact absurd enough (Nat.not_lt_zero _)
  | succ fuel ih =>
    rw [loadFrom_succ] at loaded
    split at loaded
    -- Here the chain joins what was loaded before.
    next known =>
      cases loaded
      refine ⟨⟨tracks, ?_⟩, known, .refl _⟩
      intro layer member parent named isFile
      rcases closed layer member parent named isFile with known' | rfl
      · exact known'
      · exact known
    next fresh =>
      have absent : cascade.contains scope = false := Bool.not_eq_true _ ▸ fresh
      split at loaded
      next => cases loaded
      next layer read =>
        have same : layer.scope = scope := (read_of_loadLayer read).1.trans holds.key
        have tracks' := tracks.insert holds read absent
        have here : (cascade.insert layer).contains scope = true := same ▸ contains_insert_self
        have grows := Within.insert cascade layer
        -- The layers that were there before have their parents, the new one may lack its own.
        have others : ∀ other ∈ (cascade.insert layer).layers, other ≠ layer → ∀ parent,
            other.parent = some parent → tree.isFile parent = true →
              (cascade.insert layer).contains parent = true := by
          intro other member different parent named isFile
          rcases mem_insert member with rfl | ⟨member, -⟩
          · exact absurd rfl different
          · rcases closed other member parent named isFile with known | rfl
            · exact grows parent known
            · exact here
        have smaller : (cascade.insert layer).unloaded tree < fuel := by
          have less := unloaded_insert_lt (same.symm ▸ holds.exists_mem) (same.symm ▸ absent)
          omega
        split at loaded
        next top =>
          cases loaded
          refine ⟨⟨tracks', ?_⟩, here, grows⟩
          intro other member parent named isFile
          refine others other member ?_ parent named isFile
          rintro rfl
          rw [top] at named
          cases named
        next parent named =>
          have spelled' := wellSpelled_of_loadLayer spelled holds read named
          rw [isFollowed_eq_isFile spelled' entryHolds] at loaded
          split at loaded
          next isFile =>
            have closed' : (cascade.insert layer).ClosedBut tree parent := by
              intro other member parent' named' isFile'
              by_cases different : other = layer
              · subst different
                rw [named] at named'
                cases named'
                exact Or.inr rfl
              · exact Or.inl (others other member different parent' named' isFile')
            obtain ⟨settled, -, grows'⟩ := ih tracks' closed'
              (holdsFile_of_wellSpelled plain spelled' isFile) smaller loaded
            exact ⟨settled, grows' scope here, grows.trans grows'⟩
          next noFile =>
            cases loaded
            refine ⟨⟨tracks', ?_⟩, here, grows⟩
            intro other member parent' named' isFile'
            refine others other member ?_ parent' named' isFile'
            rintro rfl
            rw [named] at named'
            cases named'
            exact noFile isFile'

/-- Loading ends well and adds nothing that a larger cascade does not have, if that cascade has
the layer that is loaded. -/
theorem loadFrom_within (plain : tree.Plain) (spelled : parentsWellSpelled tree = true)
    {full : Cascade} (settled : full.Settled tree around) {fuel : Nat}
    (within : cascade.Within full) (entryHolds : tree.HoldsFile entry)
    (holds : tree.HoldsFile scope) (known : full.contains scope = true)
    (enough : cascade.unloaded tree < fuel) :
    ∃ after, loadFrom tree entry scope fuel cascade = (after, none) ∧ after.Within full := by
  induction fuel generalizing cascade scope with
  | zero => exact absurd enough (Nat.not_lt_zero _)
  | succ fuel ih =>
    rw [loadFrom_succ]
    split
    next => exact ⟨cascade, rfl, within⟩
    next fresh =>
      -- What is read here is the file of a layer that the larger cascade shows.
      obtain ⟨shown, found⟩ := contains_iff.mp known
      obtain ⟨member, same⟩ := settled.tracks.scope_of_get? holds found
      obtain ⟨layer, read, -, parents⟩ := exists_of_view (settled.tracks.shown shown member)
      rw [same] at read
      have scope' : layer.scope = scope := (read_of_loadLayer read).1.trans holds.key
      have within' : (cascade.insert layer).Within full :=
        within.insert_of_contains (scope'.symm ▸ known)
      have absent : cascade.contains scope = false := Bool.not_eq_true _ ▸ fresh
      have smaller : (cascade.insert layer).unloaded tree < fuel := by
        have less := unloaded_insert_lt (scope'.symm ▸ holds.exists_mem) (scope'.symm ▸ absent)
        omega
      rw [read]
      dsimp only
      split
      next => exact ⟨_, rfl, within'⟩
      next parent named =>
        have spelled' := wellSpelled_of_loadLayer spelled holds read named
        rw [isFollowed_eq_isFile spelled' entryHolds]
        split
        next isFile =>
          -- The larger cascade has this parent, since it shows the same file.
          have named' : shown.parent = some parent := by
            rw [parents, named, Option.some_or]
          exact ih within' (holdsFile_of_wellSpelled plain spelled' isFile)
            (settled.closed shown member parent named' isFile) smaller
        next => exact ⟨_, rfl, within'⟩

theorem unloaded_lt (cascade : Cascade) (tree : FileTree) :
    cascade.unloaded tree < loadLimit tree := by
  have most : cascade.unloaded tree ≤ tree.entries.length := List.countP_le_length
  unfold loadLimit
  omega

theorem load_settled (plain : tree.Plain) (spelled : parentsWellSpelled tree = true) {path : Path}
    (tracks : cascade.Tracks tree around) (closed : cascade.ClosedBut tree (tree.key path))
    (holds : tree.HoldsFile (tree.key path))
    (loaded : cascade.load tree path = (after, .ok scope)) :
    scope = tree.key path ∧ after.Settled tree around ∧ after.contains scope = true ∧
      cascade.Within after := by
  unfold load at loaded
  dsimp only at loaded
  split at loaded
  next result ended =>
    cases loaded
    exact ⟨rfl,
      loadFrom_settled plain spelled tracks closed holds holds (cascade.unloaded_lt tree) ended⟩
  next => cases loaded

theorem load_within (plain : tree.Plain) (spelled : parentsWellSpelled tree = true)
    {full : Cascade} (settled : full.Settled tree around) (within : cascade.Within full)
    (holds : tree.HoldsFile scope) (known : full.contains scope = true) :
    ∃ after, cascade.load tree scope = (after, .ok scope) ∧ after.Within full := by
  obtain ⟨after, ended, within'⟩ := loadFrom_within plain spelled settled within
    holds holds known (cascade.unloaded_lt tree)
  refine ⟨after, ?_, within'⟩
  unfold load
  dsimp only
  rw [holds.key, ended]

/-- The cascade of a suite before any walk. -/
theorem settled_of_load (plain : tree.Plain) (spelled : parentsWellSpelled tree = true)
    {path : Path} (holds : tree.HoldsFile (tree.key path))
    (loaded : ({} : Cascade).load tree path = (after, .ok scope)) :
    scope = tree.key path ∧ after.Settled tree fun _ => none := by
  have tracks : ({} : Cascade).Tracks tree fun _ => none :=
    ⟨List.forall_mem_nil _, List.forall_mem_nil _, fun _ _ met => by cases met⟩
  have closed : ({} : Cascade).ClosedBut tree (tree.key path) := List.forall_mem_nil _
  obtain ⟨same, settled, -⟩ := load_settled plain spelled tracks closed holds loaded
  exact ⟨same, settled⟩

end Cascade

end Config

end SuiteRunner
