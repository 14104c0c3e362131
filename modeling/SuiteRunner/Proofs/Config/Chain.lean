import Mathlib.Data.List.Count
import Mathlib.Data.List.Nodup
import SuiteRunner.Config.Cascade

/-!
# Chains of layers

The chain of a scope follows parents from the layer of that scope to one that has none, and
meets no scope twice. The bound on its length is no further condition: a chain that meets
no scope twice has no more layers than the cascade.
-/

namespace SuiteRunner.Config

/-- What distinguishes the scope of a layer from the scopes of others. -/
def Layer.identity (layer : Layer) : List Path.Component := layer.scope.components

namespace Cascade

variable {cascade : Cascade}

theorem get?_eq_some {scope : Path} {layer : Layer} (found : cascade.get? scope = some layer) :
    layer ∈ cascade.layers ∧ layer.scope.same scope = true :=
  ⟨List.mem_of_find?_eq_some found, by simpa using List.find?_some found⟩

theorem contains_iff {scope : Path} :
    cascade.contains scope = true ↔ ∃ layer, cascade.get? scope = some layer :=
  Option.isSome_iff_exists

/-- Layers in which each names the next one as its parent, from the first to one without a
parent. -/
inductive Chained (cascade : Cascade) : Layer → List Layer → Prop where
  | last {layer : Layer} (top : layer.parent = none) : Chained cascade layer [layer]
  | step {layer next : Layer} {parent : Path} {rest : List Layer}
      (named : layer.parent = some parent) (found : cascade.get? parent = some next)
      (chained : Chained cascade next rest) : Chained cascade layer (layer :: rest)

namespace Chained

variable {first : Layer} {chain : List Layer}

theorem first_mem (chained : cascade.Chained first chain) : first ∈ chain := by
  cases chained <;> exact List.mem_cons_self

/-- All layers of a chain but the first are found in the cascade. -/
theorem mem_layers (chained : cascade.Chained first chain) (known : first ∈ cascade.layers) :
    ∀ layer ∈ chain, layer ∈ cascade.layers := by
  induction chained with
  | last =>
    intro layer member
    rw [List.mem_singleton.mp member]
    exact known
  | step named found chained ih =>
    intro layer member
    rcases List.mem_cons.mp member with rfl | member
    · exact known
    · exact ih (get?_eq_some found).1 layer member

/-- Only the last layer of a chain has no parent. -/
theorem parent_of_mem_dropLast (chained : cascade.Chained first chain) :
    ∀ layer ∈ chain.dropLast, ∃ parent, layer.parent = some parent := by
  induction chained with
  | last =>
    intro layer member
    cases member
  | @step layer next parent rest named found chained ih =>
    have nonempty : rest ≠ [] := List.ne_nil_of_mem chained.first_mem
    rw [List.dropLast_cons_of_ne_nil nonempty]
    intro other member
    rcases List.mem_cons.mp member with rfl | member
    · exact ⟨parent, named⟩
    · exact ih other member

end Chained

/-! ### Following a chain -/

theorem seen_iff {seen : List Layer} {layer : Layer} :
    seen.any (·.scope.same layer.scope) = true ↔ layer.identity ∈ seen.map Layer.identity := by
  simp only [List.any_eq_true, Path.same_iff, List.mem_map, Layer.identity]

/-- What is followed without an error is a chain that goes on behind what was seen. -/
theorem chained_of_chainFrom {seen : List Layer} {current : Layer} {fuel : Nat}
    {chain : List Layer} (distinct : (seen.map Layer.identity).Nodup)
    (followed : cascade.chainFrom seen current fuel = .ok chain) :
    ∃ rest, chain = seen.reverse ++ rest ∧ cascade.Chained current rest ∧
      (chain.map Layer.identity).Nodup := by
  induction fuel generalizing seen current with
  | zero => cases followed
  | succ fuel ih =>
    rw [chainFrom] at followed
    split at followed
    next => cases followed
    next fresh =>
      rw [seen_iff] at fresh
      have distinct' : ((current :: seen).map Layer.identity).Nodup := .cons fresh distinct
      split at followed
      next top =>
        cases followed
        refine ⟨[current], List.reverse_cons, .last top, ?_⟩
        rw [List.map_reverse, List.nodup_reverse]
        exact distinct'
      next parent named =>
        split at followed
        next => cases followed
        next next found =>
          obtain ⟨rest, split, chained, nodup⟩ := ih distinct' followed
          refine ⟨current :: rest, ?_, .step named found chained, nodup⟩
          rw [split, List.reverse_cons, List.append_assoc]
          rfl

theorem fresh_of_nodup {seen rest : List Layer} {layer : Layer}
    (distinct : ((seen.reverse ++ layer :: rest).map Layer.identity).Nodup) :
    ¬ seen.any (·.scope.same layer.scope) = true := by
  rw [seen_iff]
  intro met
  rw [List.map_append, List.map_cons, List.map_reverse] at distinct
  have disjoint := (List.nodup_append'.mp distinct).2.2
  exact disjoint (List.mem_reverse.mpr met) List.mem_cons_self

theorem chainFrom_of_chained {seen : List Layer} {current : Layer} {fuel : Nat}
    {rest : List Layer} (chained : cascade.Chained current rest)
    (distinct : ((seen.reverse ++ rest).map Layer.identity).Nodup) (enough : rest.length ≤ fuel) :
    cascade.chainFrom seen current fuel = .ok (seen.reverse ++ rest) := by
  induction chained generalizing seen fuel with
  | @last layer top =>
    obtain ⟨fuel, rfl⟩ : ∃ less, fuel = less + 1 := Nat.exists_eq_add_of_le' enough
    rw [chainFrom, if_neg (fresh_of_nodup distinct), top]
    simp only [List.reverse_cons]
  | @step layer next parent rest named found chained ih =>
    obtain ⟨fuel, rfl⟩ : ∃ less, fuel = less + 1 :=
      Nat.exists_eq_add_of_le' (Nat.le_trans (Nat.le_add_left _ _) enough)
    -- One more layer has been seen, and the whole chain is the same.
    have moved : seen.reverse ++ layer :: rest = (layer :: seen).reverse ++ rest := by
      rw [List.reverse_cons, List.append_assoc]
      rfl
    have further : cascade.chainFrom (layer :: seen) next fuel =
        .ok (seen.reverse ++ layer :: rest) := by
      rw [moved] at distinct ⊢
      exact ih distinct (Nat.le_of_succ_le_succ enough)
    rw [chainFrom, if_neg (fresh_of_nodup distinct), named]
    simp only [found, further]

/-- The chain of a scope is the one that its parents make, if it meets no scope twice. -/
theorem chain_eq_ok_iff {scope : Path} {chain : List Layer} :
    cascade.chain scope = .ok chain ↔
      ∃ first, cascade.get? scope = some first ∧ cascade.Chained first chain ∧
        (chain.map Layer.identity).Nodup := by
  unfold Cascade.chain
  cases found : cascade.get? scope with
  | none => simp
  | some first =>
    simp only [Option.some.injEq, exists_eq_left']
    constructor
    · intro followed
      obtain ⟨rest, split, chained, distinct⟩ :=
        chained_of_chainFrom (show (List.map Layer.identity []).Nodup from .nil) followed
      rw [List.reverse_nil, List.nil_append] at split
      exact ⟨split ▸ chained, distinct⟩
    · rintro ⟨chained, distinct⟩
      refine chainFrom_of_chained chained distinct ?_
      -- All layers of the chain are different layers of the cascade.
      have within := chained.mem_layers (get?_eq_some found).1
      have short := (List.subperm_of_subset (List.Nodup.of_map _ distinct) within).length_le
      omega

end Cascade

end SuiteRunner.Config
