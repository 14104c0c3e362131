import SuiteRunner.Proofs.Config.Extension
import SuiteRunner.Proofs.Discovery.Walk

/-!
# Layers that name no parent

A local layer that names no parent inherits from the layer in effect around its directory. A
walk through directories with such layers leaves every chain that was in effect as it was,
whatever links there are: a layer that took the place of one in its own chain would make a
cycle, and end the walk. So a directory opens alike whatever was walked through before.
-/

namespace SuiteRunner.Discovery

open Config Files

/-- Whether the local layer of a directory, if there is one, names no parent. -/
def inheritsFromAround (tree : FileTree) (path : Path) : Bool :=
  (loadLayer tree (path.child localLayerFile)).toOption.all (·.parent.isNone)

variable {tree : FileTree} {path scope : Path} {config : EffectiveConfig}
  {cascade after : Cascade} {chain : List Layer} {inner : Directory}

theorem parent_of_inheritsFromAround {layer : Layer} (around : inheritsFromAround tree path = true)
    (loaded : loadLayer tree (path.child localLayerFile) = .ok layer) : layer.parent = none := by
  rw [inheritsFromAround, loaded] at around
  exact Option.isNone_iff_eq_none.mp around

theorem loadParent_insert {layer : Layer} (followed : cascade.chain scope = .ok chain) :
    loadParent tree (cascade.insert layer) scope = .ok (cascade.insert layer) := by
  refine loadParent_of_contains ?_
  rw [Cascade.contains_insert, contains_of_chain followed, Bool.or_true]

/-- The chain in effect in a directory that was opened: whatever keeps it keeps the one around
the directory, and the directory opens alike wherever that one is in effect. -/
theorem openDirectory_inherits (around : inheritsFromAround tree path = true)
    (followed : cascade.chain scope = .ok chain)
    (opened : openDirectory tree path scope config cascade = .ok (inner, after)) :
    ∃ own, after.chain inner.scope = .ok own ∧
      (∀ later : Cascade, later.chain inner.scope = .ok own → later.chain scope = .ok chain) ∧
      ∀ other : Cascade, other.chain scope = .ok chain →
        ∃ after', openDirectory tree path scope config other = .ok (inner, after') ∧
          after'.chain inner.scope = .ok own := by
  obtain ⟨scope', config', names, applied, listed, rfl⟩ := openDirectory_eq_ok_iff.mp opened
  cases isFile : tree.isFile (path.child localLayerFile) with
  | false =>
    rw [applyLocalLayer_of_none isFile] at applied
    cases applied
    refine ⟨chain, followed, fun later => id, fun other followed' => ⟨other, ?_, followed'⟩⟩
    exact openDirectory_eq_ok_iff.mpr ⟨_, _, names, applyLocalLayer_of_none isFile, listed, rfl⟩
  | true =>
    obtain ⟨layer, loaded, rfl, parents, resolved, checked⟩ :=
      (applyLocalLayer_eq_ok_iff isFile).mp applied
    have orphan := parent_of_inheritsFromAround around loaded
    have inherits : (withParent layer scope).parent = some scope := by
      rw [withParent, orphan]
      rfl
    rw [orphan, Option.getD_none, loadParent_insert followed] at parents
    cases parents
    obtain ⟨own, followed', rfl⟩ := map_eq_ok resolved
    obtain ⟨apart, rfl⟩ := Cascade.chain_of_insert followed inherits followed'
    refine ⟨_, followed', fun later kept => Cascade.chain_of_parent kept inherits, ?_⟩
    -- In another cascade with the same chain the layer stands in front of that as well.
    intro other other_followed
    have front : (other.insert (withParent layer scope)).chain layer.scope =
        .ok (withParent layer scope :: chain) :=
      Cascade.chain_insert other_followed inherits apart
    refine ⟨other.insert (withParent layer scope), ?_, front⟩
    refine openDirectory_eq_ok_iff.mpr ⟨layer.scope, _, names, ?_, listed, rfl⟩
    refine (applyLocalLayer_eq_ok_iff isFile).mpr ⟨layer, loaded, rfl, ?_, ?_, checked⟩
    · rw [orphan, Option.getD_none, loadParent_insert other_followed]
    · rw [Cascade.resolve, front]
      rfl

/-- Opening a directory leaves a chain in effect there. -/
theorem exists_chain_of_openDirectory (followed : cascade.chain scope = .ok chain)
    (opened : openDirectory tree path scope config cascade = .ok (inner, after)) :
    ∃ own, after.chain inner.scope = .ok own := by
  obtain ⟨scope', config', names, applied, -, rfl⟩ := openDirectory_eq_ok_iff.mp opened
  cases isFile : tree.isFile (path.child localLayerFile) with
  | false =>
    rw [applyLocalLayer_of_none isFile] at applied
    cases applied
    exact ⟨chain, followed⟩
  | true =>
    obtain ⟨layer, -, -, -, resolved, -⟩ := (applyLocalLayer_eq_ok_iff isFile).mp applied
    obtain ⟨own, followed', -⟩ := map_eq_ok resolved
    exact ⟨own, followed'⟩

/-! ### Walks -/

section Walk

variable {setting : Setting} {directory : Directory} {progress between : Progress}
  {name : String} {depth : Nat} {findings : List Finding}

/-- All directories among the findings inherit from what is around them. -/
def Inherit (tree : FileTree) (findings : List Finding) : Prop :=
  ∀ inner, .directory inner ∈ findings → inheritsFromAround tree inner.path = true

theorem Inherit.of_subset {found : List Finding} (inherit : Inherit tree findings)
    (within : ∀ finding ∈ found, finding ∈ findings) : Inherit tree found :=
  fun inner member => inherit inner (within _ member)

/-- Going through an entry of a directory leaves the chain of the directory as it was. -/
theorem walkEntry_keeps_chain {enter : Directory → Progress → Part}
    (enters : ∀ inner after findings between own, Inherit setting.tree findings →
      enter inner after = (findings, .ok between) → after.cascade.chain inner.scope = .ok own →
        between.cascade.chain inner.scope = .ok own)
    (inherit : Inherit setting.tree findings)
    (entered : walkEntry setting enter directory name progress = (findings, .ok between))
    (followed : progress.cascade.chain directory.scope = .ok chain) :
    between.cascade.chain directory.scope = .ok chain := by
  rw [walkEntry] at entered
  split at entered
  next =>
    cases entered
    exact followed
  next =>
    cases entered
    exact followed
  next => cases entered
  next inner after visited =>
    -- Only an opened directory changes the cascade. It inherits from around, so its layer is put in
    -- front of the chain and leaves the chain itself as it was.
    obtain ⟨_, _, inside, single, walked, rfl⟩ := Part.andThen_eq_ok_iff.mp entered
    cases single
    obtain ⟨relative, cascade, -, -, -, -, -, opened, rfl⟩ := visit_opened visited
    have around : inheritsFromAround setting.tree (directory.path.child name) = true :=
      openDirectory_path opened ▸ inherit inner (List.mem_append_left _ List.mem_cons_self)
    obtain ⟨own, front, keeps, -⟩ := openDirectory_inherits around followed opened
    exact keeps _ (enters _ _ _ _ _ (inherit.of_subset fun _ => List.mem_append_right _) walked
      front)

/-- A walk through a directory leaves its chain as it was. -/
theorem walkDirectory_keeps_chain (inherit : Inherit setting.tree findings)
    (walked : walkDirectory setting depth directory progress = (findings, .ok between))
    (followed : progress.cascade.chain directory.scope = .ok chain) :
    between.cascade.chain directory.scope = .ok chain := by
  induction depth generalizing directory progress between findings chain with
  | zero =>
    cases walked
    exact followed
  | succ depth ih =>
    rw [walkDirectory] at walked
    -- The entries are passed one after the other, each leaving the chain to the next.
    generalize directory.names = names at walked
    induction names generalizing progress findings with
    | nil =>
      cases walked
      exact followed
    | cons name names further =>
      rw [walkEntries_cons] at walked
      obtain ⟨found, passed, more, first, rest, rfl⟩ := Part.andThen_eq_ok_iff.mp walked
      have inherit' := inherit.of_subset fun _ => List.mem_append_left more
      have kept := walkEntry_keeps_chain (fun _ _ _ _ _ inherit => ih inherit) inherit' first
        followed
      exact further (inherit.of_subset fun _ => List.mem_append_right found) kept rest

end Walk

end SuiteRunner.Discovery
