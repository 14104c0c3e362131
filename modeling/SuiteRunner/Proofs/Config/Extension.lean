import SuiteRunner.Proofs.Config.Loading
import SuiteRunner.Proofs.Config.Variables

/-!
# Extending chains

A layer that is added to a cascade makes no difference to chains that do not have its scope.
If it inherits from the first layer of such a chain, it stands in front of that chain. What a
chain amounts to depends on what its layers say and not on how they are linked, and a longer
chain excludes whatever the shorter one does.
-/

namespace SuiteRunner.Config

namespace Cascade

variable {cascade cascade' : Cascade} {scope : Path} {layer first : Layer} {chain : List Layer}

theorem Chained.congr (chained : cascade.Chained first chain)
    (agree : ∀ layer ∈ chain, cascade'.get? layer.scope = cascade.get? layer.scope) :
    cascade'.Chained first chain := by
  induction chained with
  | last top => exact .last top
  | @step layer next parent rest named found chained ih =>
    have agree' := fun other member => agree other (List.mem_cons_of_mem _ member)
    -- The parent is looked up under the scope of the layer that it leads to.
    have same := (get?_eq_some found).2
    have found' : cascade'.get? parent = some next := by
      rw [← get?_congr same, agree' next chained.first_mem, get?_congr same, found]
    exact .step named found' (ih agree')

/-- The chain of a scope depends only on what is found under the scopes of its layers. -/
theorem chain_congr (followed : cascade.chain scope = .ok chain)
    (agree : ∀ layer ∈ chain, cascade'.get? layer.scope = cascade.get? layer.scope) :
    cascade'.chain scope = .ok chain := by
  obtain ⟨first, found, chained, distinct⟩ := chain_eq_ok_iff.mp followed
  have same := (get?_eq_some found).2
  refine chain_eq_ok_iff.mpr ⟨first, ?_, chained.congr agree, distinct⟩
  rw [← get?_congr same, agree first chained.first_mem, get?_congr same, found]

theorem get?_insert_of_other {other : Path} (different : layer.scope.same other = false) :
    (cascade.insert layer).get? other = cascade.get? other := by
  rw [get?_insert, if_neg (by simp [different])]

/-- A layer that inherits from a chain stands in front of it. -/
theorem chain_insert (followed : cascade.chain scope = .ok chain)
    (inherits : layer.parent = some scope)
    (apart : ∀ other ∈ chain, layer.scope.same other.scope = false) :
    (cascade.insert layer).chain layer.scope = .ok (layer :: chain) := by
  have agree : ∀ other ∈ chain,
      (cascade.insert layer).get? other.scope = cascade.get? other.scope :=
    fun other member => get?_insert_of_other (apart other member)
  obtain ⟨first, found, chained, distinct⟩ :=
    chain_eq_ok_iff.mp (chain_congr followed agree)
  have here : (cascade.insert layer).get? layer.scope = some layer := by
    rw [get?_insert, if_pos (Path.same_iff.mpr rfl)]
  refine chain_eq_ok_iff.mpr ⟨layer, here, .step inherits found chained, ?_⟩
  rw [List.map_cons, List.nodup_cons]
  refine ⟨fun met => ?_, distinct⟩
  obtain ⟨other, member, same⟩ := List.mem_map.mp met
  have different := apart other member
  rw [← Bool.not_eq_true, Path.same_iff] at different
  exact different same.symm

/-- Behind a layer with a parent stands the chain of that parent. -/
theorem chain_of_parent {parent : Path} (followed : cascade.chain scope = .ok (layer :: chain))
    (inherits : layer.parent = some parent) : cascade.chain parent = .ok chain := by
  obtain ⟨first, -, chained, distinct⟩ := chain_eq_ok_iff.mp followed
  cases chained with
  | last top => cases inherits.symm.trans top
  | step named found chained =>
    cases inherits.symm.trans named
    exact chain_eq_ok_iff.mpr ⟨_, found, chained, (List.nodup_cons.mp distinct).2⟩

/-- A chain that met the scope of an inserted layer comes to that layer. -/
theorem Chained.meets_inserted {next : Layer} {rest : List Layer}
    (chained : cascade.Chained first chain) (found : cascade.get? scope = some first)
    (chained' : (cascade.insert layer).Chained next rest)
    (found' : (cascade.insert layer).get? scope = some next)
    (met : ∃ other ∈ chain, layer.scope.same other.scope = true) : layer ∈ rest := by
  induction chained generalizing scope next rest with
  | @last top noParent =>
    obtain ⟨other, member, same⟩ := met
    obtain rfl := List.mem_singleton.mp member
    have here : layer.scope.same scope = true :=
      Path.same_iff.mpr ((Path.same_iff.mp same).trans (Path.same_iff.mp (get?_eq_some found).2))
    rw [get?_insert, if_pos here] at found'
    cases found'
    exact chained'.first_mem
  | @step current follower parent behind named further chained ih =>
    rw [get?_insert] at found'
    split at found'
    next =>
      cases found'
      exact chained'.first_mem
    next elsewhere =>
      -- The first layer is the one it was, so the scope is met behind it.
      cases found.symm.trans found'
      obtain ⟨other, member, same⟩ := met
      rcases List.mem_cons.mp member with rfl | member
      · have here := (Path.same_iff.mp same).trans (Path.same_iff.mp (get?_eq_some found).2)
        exact absurd (Path.same_iff.mpr here) elsewhere
      · cases chained' with
        | last top => cases named.symm.trans top
        | step named' further' chained' =>
          cases named.symm.trans named'
          exact List.mem_cons_of_mem _ (ih further chained' further' ⟨other, member, same⟩)

/-- If a layer that inherits from a chain has a chain itself, it is no part of the one it
inherits from, which stays as it was. -/
theorem chain_of_insert {chain' : List Layer} (followed : cascade.chain scope = .ok chain)
    (inherits : layer.parent = some scope)
    (followed' : (cascade.insert layer).chain layer.scope = .ok chain') :
    (∀ other ∈ chain, layer.scope.same other.scope = false) ∧ chain' = layer :: chain := by
  have apart : ∀ other ∈ chain, layer.scope.same other.scope = false := by
    obtain ⟨here, found', chained', distinct'⟩ := chain_eq_ok_iff.mp followed'
    rw [get?_insert, if_pos (Path.same_iff.mpr rfl)] at found'
    cases found'
    obtain ⟨first, found, chained, -⟩ := chain_eq_ok_iff.mp followed
    intro other member
    rw [← Bool.not_eq_true]
    intro same
    -- Otherwise the chain of the layer would come back to it.
    cases chained' with
    | last top => cases inherits.symm.trans top
    | @step _ next parent rest named further chained' =>
      cases inherits.symm.trans named
      have back := chained.meets_inserted found chained' further ⟨other, member, same⟩
      exact (List.nodup_cons.mp distinct').1 (List.mem_map.mpr ⟨layer, back, rfl⟩)
  refine ⟨apart, ?_⟩
  cases followed'.symm.trans (chain_insert followed inherits apart)
  rfl

end Cascade

/-! ### What a chain amounts to -/

/-- A layer without its link to a parent. -/
def Layer.unlinked (layer : Layer) : Layer := { layer with parent := none }

/-- What a chain amounts to does not depend on how its layers are linked. -/
theorem flatten_unlinked (chain : List Layer) :
    flatten (chain.map Layer.unlinked) = flatten chain := by
  have root : defaultRoot (chain.map Layer.unlinked) = defaultRoot chain := by
    rw [defaultRoot, defaultRoot, List.getLast?_map]
    cases chain.getLast? <;> rfl
  simp only [flatten, root, List.findSome?_map, List.foldl_map, List.flatMap_map, List.map_map]
  rfl

theorem flatten_congr {chain chain' : List Layer}
    (same : chain.map Layer.unlinked = chain'.map Layer.unlinked) :
    flatten chain = flatten chain' := by
  rw [← flatten_unlinked chain, same, flatten_unlinked]

theorem mem_mergeLists {lists : List (List String)} {item : String} :
    item ∈ mergeLists (· == ·) lists ↔ ∃ list ∈ lists, item ∈ list := by
  rw [mergeLists_eq, mem_appendUnique, List.mem_flatten]
  simp

/-- Whatever a chain excludes, it excludes with further layers in front of it. -/
theorem excludes_flatten_append (front chain : List Layer) :
    ∀ item ∈ (flatten chain).excludes, item ∈ (flatten (front ++ chain)).excludes := by
  intro item excluded
  obtain ⟨list, member, inside⟩ := mem_mergeLists.mp excluded
  refine mem_mergeLists.mpr ⟨list, ?_, inside⟩
  rw [List.map_append]
  exact List.mem_append_right _ member

end SuiteRunner.Config
