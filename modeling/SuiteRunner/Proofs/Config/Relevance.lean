import Mathlib.Data.List.Perm.Basic
import SuiteRunner.Proofs.Config.Ancestors
import SuiteRunner.Proofs.Path.Joining

/-!
# Layers that matter to a scope

What is in effect for a scope depends only on what stands under the scopes that the walk from it
looks up: its own, and the parents named on the way. So a layer with any other scope changes
nothing, whether the walk comes to an end or fails. And since a cascade answers each lookup with
the layer inserted last, neither the order in which layers with different scopes are inserted nor
a layer that has been replaced leaves a trace.
-/

namespace SuiteRunner.Config

namespace Cascade

variable {cascade cascade' : Cascade} {scope asked : Path} {layer former : Layer} {steps : Nat}
  {layers layers' : List Layer}

/-! ### What a walk looks up -/

/-- The walk from a scope looks up that scope, and the parent of every layer that it comes to. -/
inductive LooksUp (cascade : Cascade) (scope : Path) : Path → Prop where
  | start : LooksUp cascade scope scope
  | parent {steps : Nat} {layer : Layer} {parent : Path}
      (met : cascade.ancestor? scope steps = some layer) (named : layer.parent = some parent) :
      LooksUp cascade scope parent

/-- The other cascade answers all lookups of the walk from a scope alike. -/
def AnswersAlike (cascade cascade' : Cascade) (scope : Path) : Prop :=
  ∀ asked, cascade.LooksUp scope asked → cascade'.get? asked = cascade.get? asked

namespace AnswersAlike

theorem ancestor?_eq (alike : cascade.AnswersAlike cascade' scope) (steps : Nat) :
    cascade'.ancestor? scope steps = cascade.ancestor? scope steps := by
  induction steps with
  | zero => exact alike scope .start
  | succ steps ih =>
    rw [ancestor?, ancestor?, ih]
    cases met : cascade.ancestor? scope steps with
    | none => rfl
    | some layer =>
      cases named : layer.parent with
      | none => simp [named]
      | some parent => simp [named, alike parent (.parent met named)]

theorem contains_eq (alike : cascade.AnswersAlike cascade' scope)
    (asks : cascade.LooksUp scope asked) : cascade'.contains asked = cascade.contains asked := by
  rw [contains, alike asked asks, contains]

theorem apartBefore (alike : cascade.AnswersAlike cascade' scope) {count : Nat}
    (apart : cascade.ApartBefore scope count) : cascade'.ApartBefore scope count := by
  intro i j a b before within met met'
  rw [alike.ancestor?_eq] at met met'
  exact apart i j a b before within met met'

theorem reachesTop (alike : cascade.AnswersAlike cascade' scope)
    (reaches : cascade.ReachesTop scope) : cascade'.ReachesTop scope := by
  obtain ⟨steps, top, met, noParent, apart⟩ := reaches
  exact ⟨steps, top, (alike.ancestor?_eq steps).trans met, noParent, alike.apartBefore apart⟩

/-- The walk fails in the same way. -/
theorem fails {error : Error} (alike : cascade.AnswersAlike cascade' scope)
    (fails : cascade.Fails scope error) : cascade'.Fails scope error := by
  cases fails with
  | unknown absent => exact .unknown ((alike.contains_eq .start).trans absent)
  | missing met named absent others =>
    refine .missing ((alike.ancestor?_eq _).trans met) named
      ((alike.contains_eq (.parent met named)).trans absent) fun earlier before => ?_
    obtain ⟨layer, parent, met, named, known⟩ := others earlier before
    exact ⟨layer, parent, (alike.ancestor?_eq _).trans met, named,
      (alike.contains_eq (.parent met named)).trans known⟩
  | cycle before met met' apart =>
    exact .cycle before ((alike.ancestor?_eq _).trans met) ((alike.ancestor?_eq _).trans met')
      (alike.apartBefore apart)

theorem chain_eq (alike : cascade.AnswersAlike cascade' scope) :
    cascade'.chain scope = cascade.chain scope := by
  rcases cascade.chain_comes scope with ⟨chain, followed, walk, reaches⟩ | ⟨error, failed, fails⟩
  · obtain ⟨chain', followed'⟩ := exists_chain_of_reachesTop (alike.reachesTop reaches)
    have walk' := (isWalk_of_chain followed').1
    have same : chain' = chain := by
      apply List.ext_getElem?
      intro i
      rw [walk'.walked, walk.walked, alike.ancestor?_eq]
    rw [followed, followed', same]
  · rw [failed, chain_eq_error_iff.mpr (alike.fails fails)]

/-- What is in effect for a scope depends on the lookups of the walk from it and on nothing else. -/
theorem resolve_eq (alike : cascade.AnswersAlike cascade' scope) :
    cascade'.resolve scope = cascade.resolve scope := by
  rw [resolve, alike.chain_eq, resolve]

end AnswersAlike

/-- Cascades that find the same layers have the same configuration for every scope. -/
theorem resolve_eq_of_get?_eq (same : ∀ asked, cascade'.get? asked = cascade.get? asked)
    (scope : Path) : cascade'.resolve scope = cascade.resolve scope :=
  AnswersAlike.resolve_eq fun asked _ => same asked

/-! ### Layers that are not looked up -/

/-- The layer has none of the scopes that the walk from a scope meets, and not the one that the
walk fails to find. -/
structure Unrelated (cascade : Cascade) (scope : Path) (layer : Layer) : Prop where
  passed : ∀ steps other, cascade.ancestor? scope steps = some other →
    layer.scope.same other.scope = false
  unknown : ∀ absent, cascade.chain scope = .error (.unknownLayer absent) →
    layer.scope.same absent = false
  missing : ∀ child absent, cascade.chain scope = .error (.missingParent child absent) →
    layer.scope.same absent = false

/-- Every lookup either finds a layer that the walk meets, or ends the walk as a failure. -/
theorem Unrelated.of_looksUp (unrelated : cascade.Unrelated scope layer)
    (asks : cascade.LooksUp scope asked) : layer.scope.same asked = false := by
  have met_under {steps : Nat} {other : Layer} (met : cascade.ancestor? scope steps = some other)
      (found : cascade.get? asked = some other) : layer.scope.same asked = false := by
    have different := unrelated.passed steps other met
    rw [Path.same, Path.same_iff.mp (get?_eq_some found).2] at different
    exact different
  cases asks with
  | start =>
    cases found : cascade.get? scope with
    | none =>
      apply unrelated.unknown
      exact chain_eq_error_iff.mpr (.unknown (contains_eq_false_iff.mpr found))
    | some other =>
      have met : cascade.ancestor? scope 0 = some other := found
      exact met_under met found
  | @parent steps child _ met named =>
    cases found : cascade.get? asked with
    | none =>
      -- all parents before this one are there, or the walk would not have come so far
      apply unrelated.missing child.scope
      exact chain_eq_error_iff.mpr (.missing met named (contains_eq_false_iff.mpr found)
        fun earlier before => parent_of_earlier met before)
    | some other => exact met_under ((ancestor?_of_parent met named).trans found) found

theorem Unrelated.answersAlike (unrelated : cascade.Unrelated scope layer) :
    cascade.AnswersAlike (cascade.insert layer) scope :=
  fun _ asks => get?_insert_of_other (unrelated.of_looksUp asks)

/-- A walk that does not fail meets the layers of its chain. -/
theorem unrelated_of_chain {chain : List Layer} (followed : cascade.chain scope = .ok chain)
    (apart : ∀ other ∈ chain, layer.scope.same other.scope = false) :
    cascade.Unrelated scope layer := by
  refine ⟨fun steps other met => ?_, fun absent failed => ?_, fun child absent failed => ?_⟩
  · rw [← (isWalk_of_chain followed).1.walked] at met
    exact apart other (List.mem_of_getElem? met)
  · cases followed.symm.trans failed
  · cases followed.symm.trans failed

/-! ### Inserting layers one after another -/

def insertAll (cascade : Cascade) (layers : List Layer) : Cascade := layers.foldl insert cascade

/-- No two of the layers have the same scope. -/
def ScopesDiffer (layers : List Layer) : Prop :=
  layers.Pairwise fun layer other => layer.scope.same other.scope = false

instance (layers : List Layer) : Decidable (ScopesDiffer layers) :=
  inferInstanceAs (Decidable (layers.Pairwise _))

/-- The layer inserted last is found, and otherwise what was there before. -/
theorem get?_insertAll (cascade : Cascade) (layers : List Layer) (asked : Path) :
    (cascade.insertAll layers).get? asked =
      (layers.reverse.find? (·.scope.same asked)).or (cascade.get? asked) := by
  induction layers using List.reverseRecOn with
  | nil => rfl
  | append_singleton layers layer ih =>
    rw [insertAll, List.foldl_concat, ← insertAll, get?_insert, ih, List.reverse_concat,
      List.find?_cons]
    cases layer.scope.same asked <;> rfl

/-- Of layers with different scopes only one can be found under a scope. -/
theorem ScopesDiffer.find?_eq_some_iff (differ : ScopesDiffer layers) :
    layers.find? (·.scope.same asked) = some layer ↔
      layer ∈ layers ∧ layer.scope.same asked = true := by
  constructor
  · intro found
    exact ⟨List.mem_of_find?_eq_some found, by simpa using List.find?_some found⟩
  · rintro ⟨member, same⟩
    obtain ⟨before, after, rfl⟩ := List.append_of_mem member
    rw [List.find?_eq_some_iff_append]
    refine ⟨same, before, after, rfl, fun other earlier => ?_⟩
    -- a layer in front with this scope would have the scope of the layer
    have different := (List.pairwise_append.mp differ).2.2 other earlier layer List.mem_cons_self
    rw [Path.same, ← Path.same_iff.mp same]
    simpa [Path.same] using different

theorem ScopesDiffer.perm (differ : ScopesDiffer layers) (permuted : layers.Perm layers') :
    ScopesDiffer layers' :=
  (permuted.pairwise_iff fun different => (Path.same_comm _ _).trans different).mp differ

theorem get?_insertAll_perm (differ : ScopesDiffer layers) (permuted : layers.Perm layers')
    (cascade : Cascade) (asked : Path) :
    (cascade.insertAll layers).get? asked = (cascade.insertAll layers').get? asked := by
  rw [get?_insertAll, get?_insertAll]
  congr 1
  have differ' := differ.perm permuted
  ext layer
  rw [(differ.perm layers.reverse_perm.symm).find?_eq_some_iff,
    (differ'.perm layers'.reverse_perm.symm).find?_eq_some_iff, List.mem_reverse,
    List.mem_reverse, permuted.mem_iff]

/-- A layer that is replaced leaves no trace, whatever is inserted in between. -/
theorem get?_insert_again (same : former.scope.same layer.scope = true) (between : List Layer)
    (cascade : Cascade) (asked : Path) :
    (((cascade.insert former).insertAll between).insert layer).get? asked =
      ((cascade.insertAll between).insert layer).get? asked := by
  rw [get?_insert, get?_insert]
  by_cases here : layer.scope.same asked = true
  · rw [if_pos here, if_pos here]
  · have elsewhere : former.scope.same asked = false := by
      rw [Path.same, Path.same_iff.mp same]
      simpa [Path.same] using here
    rw [if_neg here, if_neg here, get?_insertAll, get?_insertAll, get?_insert_of_other elsewhere]

/-- What is in effect for a scope is decided by the layers that the walk from it looks up. A layer
with another scope changes neither the configuration nor the failure; layers with different scopes
may be inserted in any order; and of layers with one scope only the last one counts. -/
theorem only_lookups_matter (cascade : Cascade) :
    (∀ scope layer, cascade.Unrelated scope layer →
      (cascade.insert layer).resolve scope = cascade.resolve scope) ∧
    (∀ layers layers', ScopesDiffer layers → layers.Perm layers' → ∀ scope,
      (cascade.insertAll layers).resolve scope = (cascade.insertAll layers').resolve scope) ∧
    ∀ former layer between, former.scope.same layer.scope = true →
      (∀ asked, layer.scope.same asked = true →
        (((cascade.insert former).insertAll between).insert layer).get? asked = some layer) ∧
      ∀ scope, (((cascade.insert former).insertAll between).insert layer).resolve scope =
        ((cascade.insertAll between).insert layer).resolve scope := by
  refine ⟨fun scope layer unrelated => unrelated.answersAlike.resolve_eq,
    fun layers layers' differ permuted => ?_, fun former layer between same => ⟨?_, ?_⟩⟩
  · apply resolve_eq_of_get?_eq
    exact get?_insertAll_perm differ permuted cascade
  · intro asked here
    rw [get?_insert, if_pos here]
  · apply resolve_eq_of_get?_eq
    exact get?_insert_again same between cascade

/-- A layer that inherits from a suite. -/
def siteLayer : Layer :=
  { scope := ⟨"/site/litmus.toml"⟩, parent := some ⟨"/suite//litmus.toml"⟩ }

def suiteLayer : Layer := { scope := ⟨"/suite/litmus.toml"⟩, suffixes := [".t"] }

/-- A layer whose parent is absent. -/
def strayLayer : Layer :=
  { scope := ⟨"/stray/litmus.toml"⟩, parent := some ⟨"/gone/litmus.toml"⟩ }

theorem siteLayer_keeps_suite :
    let cascade := ({} : Cascade).insertAll [siteLayer, suiteLayer, strayLayer]
    let found : Layer := { scope := ⟨"/gone/litmus.toml"⟩, suffixes := [".c"] }
    let changed : Layer := { scope := ⟨"/suite/./litmus.toml"⟩, suffixes := [".ll"] }
    cascade.Unrelated siteLayer.scope found ∧
      (cascade.insert found).resolve siteLayer.scope = cascade.resolve siteLayer.scope ∧
      (({} : Cascade).insertAll [strayLayer, suiteLayer, siteLayer]).resolve strayLayer.scope =
        .error (.missingParent ⟨"/stray/litmus.toml"⟩ ⟨"/gone/litmus.toml"⟩) ∧
      (cascade.insert changed).get? suiteLayer.scope = some changed ∧
      (cascade.insert changed).resolve siteLayer.scope =
        (({} : Cascade).insertAll [siteLayer, strayLayer, changed]).resolve siteLayer.scope := by
  intro cascade found changed
  have followed : cascade.chain siteLayer.scope = .ok [siteLayer, suiteLayer] := by decide +kernel
  have unrelated : cascade.Unrelated siteLayer.scope found :=
    unrelated_of_chain followed (by decide +kernel)
  have stray : cascade.resolve strayLayer.scope =
      .error (.missingParent ⟨"/stray/litmus.toml"⟩ ⟨"/gone/litmus.toml"⟩) := by decide +kernel
  have reversed := (only_lookups_matter {}).2.1 [siteLayer, suiteLayer, strayLayer]
    [strayLayer, suiteLayer, siteLayer] (by decide +kernel) (List.reverse_perm _).symm
  have again := (only_lookups_matter (({} : Cascade).insert siteLayer)).2.2 suiteLayer changed
    [strayLayer] (by decide +kernel)
  exact ⟨unrelated, (only_lookups_matter cascade).1 _ _ unrelated, (reversed _).symm.trans stray,
    again.1 suiteLayer.scope (by decide +kernel), again.2 siteLayer.scope⟩

end Cascade

end SuiteRunner.Config
