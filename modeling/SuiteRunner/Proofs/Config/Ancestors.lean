import Mathlib.Data.List.Induction
import SuiteRunner.Proofs.Config.Extension

/-!
# What the walk along parents comes to

From a scope the parents lead from layer to layer. Either the walk ends, at a layer without a
parent or at one whose parent is absent, or it goes round for ever, and then it has met some
scope twice before it has met as many layers as there are. The chain of a scope tells these
cases apart exactly.
-/

namespace SuiteRunner.Config

namespace Cascade

variable {cascade : Cascade} {scope : Path} {layer : Layer} {steps : Nat}

/-- The cascade into which some layers have been inserted, the first of them first. -/
def ofInserted (inserted : List Layer) : Cascade := inserted.foldl insert {}

/-- Under a scope stands the layer that was inserted last with that scope. -/
theorem get?_ofInserted (inserted : List Layer) (scope : Path) :
    (ofInserted inserted).get? scope = inserted.reverse.find? (·.scope.same scope) := by
  induction inserted using List.reverseRecOn with
  | nil => rfl
  | append_singleton inserted layer ih =>
    rw [ofInserted, List.foldl_append, ← ofInserted, List.foldl_cons, List.foldl_nil,
      get?_insert, ih, List.reverse_append, List.reverse_singleton, List.singleton_append,
      List.find?_cons]
    cases layer.scope.same scope <;> rfl

/-! ### The walk -/

/-- The layer that the walk from a scope comes to after so many steps to a parent. -/
def ancestor? (cascade : Cascade) (scope : Path) : (steps : Nat) → Option Layer
  | 0 => cascade.get? scope
  | steps + 1 =>
    (cascade.ancestor? scope steps).bind fun layer => layer.parent.bind cascade.get?

theorem ancestor?_succ (met : cascade.ancestor? scope steps = some layer) :
    cascade.ancestor? scope (steps + 1) = layer.parent.bind cascade.get? := by
  rw [ancestor?, met, Option.bind_some]

theorem ancestor?_of_top (met : cascade.ancestor? scope steps = some layer)
    (top : layer.parent = none) : cascade.ancestor? scope (steps + 1) = none := by
  rw [ancestor?_succ met, top, Option.bind_none]

theorem ancestor?_of_parent {parent : Path} (met : cascade.ancestor? scope steps = some layer)
    (named : layer.parent = some parent) :
    cascade.ancestor? scope (steps + 1) = cascade.get? parent := by
  rw [ancestor?_succ met, named, Option.bind_some]

/-- A layer of the walk is the one that stands under its scope. -/
theorem get?_of_ancestor? (met : cascade.ancestor? scope steps = some layer) :
    cascade.get? layer.scope = some layer := by
  have stands {asked : Path} (found : cascade.get? asked = some layer) :
      cascade.get? layer.scope = some layer :=
    (get?_congr (get?_eq_some found).2).trans found
  cases steps with
  | zero => exact stands met
  | succ steps =>
    obtain ⟨child, -, met⟩ := Option.bind_eq_some_iff.mp met
    obtain ⟨parent, -, found⟩ := Option.bind_eq_some_iff.mp met
    exact stands found

/-- Layers of the walk with one scope are one layer. -/
theorem ancestor?_eq_of_same {steps' : Nat} {other : Layer}
    (met : cascade.ancestor? scope steps = some layer)
    (met' : cascade.ancestor? scope steps' = some other)
    (same : layer.scope.same other.scope = true) : layer = other := by
  have found := get?_of_ancestor? met
  rw [get?_congr same, get?_of_ancestor? met'] at found
  exact (Option.some.inj found).symm

/-- From a layer of the walk the walk goes on as from its scope. -/
theorem ancestor?_add (met : cascade.ancestor? scope steps = some layer) (more : Nat) :
    cascade.ancestor? scope (steps + more) = cascade.ancestor? layer.scope more := by
  induction more with
  | zero => rw [Nat.add_zero, met, ancestor?, get?_of_ancestor? met]
  | succ more ih => rw [← Nat.add_assoc, ancestor?, ih, ancestor?]

theorem ancestor?_of_le {steps' : Nat} (ended : cascade.ancestor? scope steps = none)
    (later : steps ≤ steps') : cascade.ancestor? scope steps' = none := by
  induction later with
  | refl => exact ended
  | step _ ih => rw [ancestor?, ih, Option.bind_none]

/-- A layer that the walk goes on from has a parent that is there. -/
theorem parent_of_earlier {earlier : Nat} (met : cascade.ancestor? scope steps = some layer)
    (before : earlier < steps) :
    ∃ child parent, cascade.ancestor? scope earlier = some child ∧ child.parent = some parent ∧
      cascade.contains parent = true := by
  cases next : cascade.ancestor? scope (earlier + 1) with
  | none => cases (ancestor?_of_le next before).symm.trans met
  | some following =>
    obtain ⟨child, met, next⟩ := Option.bind_eq_some_iff.mp next
    obtain ⟨parent, named, found⟩ := Option.bind_eq_some_iff.mp next
    exact ⟨child, parent, met, named, contains_iff.mpr ⟨following, found⟩⟩

/-! ### How a walk can end -/

/-- The layer is the last one that the walk meets. -/
structure EndsAt (cascade : Cascade) (scope : Path) (steps : Nat) (layer : Layer) : Prop where
  met : cascade.ancestor? scope steps = some layer
  ended : cascade.ancestor? scope (steps + 1) = none

theorem EndsAt.unique {steps' : Nat} {other : Layer} (ends : cascade.EndsAt scope steps layer)
    (ends' : cascade.EndsAt scope steps' other) : layer = other := by
  have notBefore {m n : Nat} {a b : Layer} (ends : cascade.EndsAt scope m a)
      (ends' : cascade.EndsAt scope n b) : ¬ m < n := by
    intro before
    have := ancestor?_of_le ends.ended before
    cases this.symm.trans ends'.met
  have same : steps = steps' := by
    have := notBefore ends ends'
    have := notBefore ends' ends
    omega
  subst same
  exact Option.some.inj (ends.met.symm.trans ends'.met)

/-- A walk that comes back to a layer never ends. -/
theorem ancestor?_ne_none_of_again {first again : Nat} (before : first < again)
    (met : cascade.ancestor? scope first = some layer)
    (met' : cascade.ancestor? scope again = some layer) (steps : Nat) :
    cascade.ancestor? scope steps ≠ none := by
  intro ended
  -- Going round once more makes no difference, so a walk that had ended had done so a round ago.
  induction steps using Nat.strongRecOn with
  | _ steps ih =>
    by_cases within : steps ≤ again
    · have := ancestor?_of_le ended within
      cases this.symm.trans met'
    · obtain ⟨more, rfl⟩ := Nat.exists_eq_add_of_le (Nat.le_of_not_le within)
      rw [ancestor?_add met' more, ← ancestor?_add met more] at ended
      exact ih (first + more) (by omega) ended

/-- No two of the first so many layers of the walk have the same scope. -/
def ApartBefore (cascade : Cascade) (scope : Path) (count : Nat) : Prop :=
  ∀ i j a b, i < j → j < count → cascade.ancestor? scope i = some a →
    cascade.ancestor? scope j = some b → a.scope.same b.scope = false

theorem ApartBefore.of_distinct {layers : List Layer}
    (walked : ∀ i < layers.length, cascade.ancestor? scope i = layers[i]?)
    (distinct : (layers.map Layer.identity).Nodup) : cascade.ApartBefore scope layers.length := by
  intro i j a b before within met met'
  rw [walked i (Nat.lt_trans before within)] at met
  rw [walked j within] at met'
  obtain ⟨inside, rfl⟩ := List.getElem?_eq_some_iff.mp met
  obtain ⟨inside', rfl⟩ := List.getElem?_eq_some_iff.mp met'
  rw [← Bool.not_eq_true, Path.same_iff]
  exact List.pairwise_iff_getElem.mp (List.pairwise_map.mp distinct) i j inside inside' before

/-- The walk comes to a layer without a parent and meets no scope twice on its way. -/
def ReachesTop (cascade : Cascade) (scope : Path) : Prop :=
  ∃ steps top, cascade.ancestor? scope steps = some top ∧ top.parent = none ∧
    cascade.ApartBefore scope (steps + 1)

/-- The walk comes to no layer without a parent, and why. -/
inductive Fails (cascade : Cascade) (scope : Path) : Error → Prop where
  | unknown (absent : cascade.contains scope = false) :
      Fails cascade scope (.unknownLayer scope)
  /-- All parents are there before the one that is absent. -/
  | missing {steps : Nat} {child : Layer} {parent : Path}
      (met : cascade.ancestor? scope steps = some child) (named : child.parent = some parent)
      (absent : cascade.contains parent = false)
      (others : ∀ earlier < steps, ∃ layer parent, cascade.ancestor? scope earlier = some layer ∧
        layer.parent = some parent ∧ cascade.contains parent = true) :
      Fails cascade scope (.missingParent child.scope parent)
  /-- The second meeting is the first one with any scope that has been met. -/
  | cycle {first again : Nat} {layer : Layer} (before : first < again)
      (met : cascade.ancestor? scope first = some layer)
      (met' : cascade.ancestor? scope again = some layer)
      (apart : cascade.ApartBefore scope again) : Fails cascade scope (.cycle layer.scope)

theorem contains_eq_false_iff : cascade.contains scope = false ↔ cascade.get? scope = none := by
  rw [contains, Option.isSome_eq_false_iff, Option.isNone_iff_eq_none]

theorem EndsAt.of_top (met : cascade.ancestor? scope steps = some layer)
    (top : layer.parent = none) : cascade.EndsAt scope steps layer :=
  ⟨met, ancestor?_of_top met top⟩

theorem EndsAt.of_missing {parent : Path} (met : cascade.ancestor? scope steps = some layer)
    (named : layer.parent = some parent) (absent : cascade.contains parent = false) :
    cascade.EndsAt scope steps layer :=
  ⟨met, (ancestor?_of_parent met named).trans (contains_eq_false_iff.mp absent)⟩

/-- A walk that reaches a layer without a parent does not fail. -/
theorem ReachesTop.not_fails {error : Error} (reaches : cascade.ReachesTop scope) :
    ¬ cascade.Fails scope error := by
  obtain ⟨steps, top, met, noParent, -⟩ := reaches
  -- The walk ends at the top, and so it would have to end there in each of the ways to fail as
  -- well.
  have ends := EndsAt.of_top met noParent
  intro fails
  cases fails with
  | unknown absent =>
    have none : cascade.ancestor? scope 0 = none := contains_eq_false_iff.mp absent
    cases (ancestor?_of_le none (Nat.zero_le steps)).symm.trans met
  | missing met' named absent =>
    cases ends.unique (.of_missing met' named absent)
    cases noParent.symm.trans named
  | cycle before met' again =>
    exact ancestor?_ne_none_of_again before met' again _ ends.ended

/-- A walk fails in one way at most. -/
theorem Fails.unique {error error' : Error} (fails : cascade.Fails scope error)
    (fails' : cascade.Fails scope error') : error = error' := by
  have start {n : Nat} {other : Layer} (absent : cascade.contains scope = false)
      (met : cascade.ancestor? scope n = some other) : False := by
    have none : cascade.ancestor? scope 0 = none := contains_eq_false_iff.mp absent
    cases (ancestor?_of_le none (Nat.zero_le n)).symm.trans met
  cases fails with
  | unknown absent =>
    cases fails' with
    | unknown => rfl
    | missing met => exact (start absent met).elim
    | cycle _ met => exact (start absent met).elim
  | missing met named absent =>
    have ends := EndsAt.of_missing met named absent
    cases fails' with
    | unknown absent => exact (start absent met).elim
    | missing met' named' absent' =>
      cases ends.unique (.of_missing met' named' absent')
      cases named.symm.trans named'
      rfl
    | cycle before met' again =>
      exact (ancestor?_ne_none_of_again before met' again _ ends.ended).elim
  | @cycle first again layer before met met' apart =>
    cases fails' with
    | unknown absent => exact (start absent met).elim
    | missing met'' named absent =>
      exact (ancestor?_ne_none_of_again before met met' _
        (EndsAt.of_missing met'' named absent).ended).elim
    | @cycle _ again' _ before' metOther metOther' apart' =>
      -- A scope that is met again before another one is keeps the other from being the first.
      have notBefore {i j k : Nat} {a : Layer} (before : i < j)
          (met : cascade.ancestor? scope i = some a) (met' : cascade.ancestor? scope j = some a)
          (apart : cascade.ApartBefore scope k) : ¬ j < k := by
        intro within
        have different := apart i j a a before within met met'
        rw [Path.same_iff.mpr rfl] at different
        cases different
      have same : again = again' := by
        have := notBefore before met met' apart'
        have := notBefore before' metOther metOther' apart
        omega
      subst same
      cases met'.symm.trans metOther'
      rfl

/-! ### Following the walk -/

/-- The layers passed so far, the latest first, are those at the beginning of the walk, which now
comes to the current layer. -/
structure Passed (cascade : Cascade) (scope : Path) (seen : List Layer) (current : Layer) :
    Prop where
  walked : ∀ i < seen.length, cascade.ancestor? scope i = seen.reverse[i]?
  here : cascade.ancestor? scope seen.length = some current
  distinct : (seen.map Layer.identity).Nodup

namespace Passed

variable {seen : List Layer} {current : Layer}

theorem start (found : cascade.get? scope = some current) :
    cascade.Passed scope [] current :=
  ⟨fun _ before => absurd before (Nat.not_lt_zero _), found, .nil⟩

theorem mem_layers (passed : cascade.Passed scope seen current) :
    ∀ layer ∈ seen, layer ∈ cascade.layers := by
  intro layer member
  obtain ⟨i, before, at_⟩ := List.mem_iff_getElem.mp (List.mem_reverse.mpr member)
  rw [List.length_reverse] at before
  have met := passed.walked i before
  rw [List.getElem?_eq_getElem (by simpa using before), at_] at met
  exact (get?_eq_some (get?_of_ancestor? met)).1

/-- As no layer is passed twice, no more layers are passed than there are. -/
theorem length_le (passed : cascade.Passed scope seen current) :
    seen.length ≤ cascade.layers.length :=
  (List.subperm_of_subset (.of_map _ passed.distinct) passed.mem_layers).length_le

/-- The first layers of the walk, with the current one. -/
theorem ancestor?_eq (passed : cascade.Passed scope seen current) {i : Nat}
    (within : i < seen.length + 1) :
    cascade.ancestor? scope i = (current :: seen).reverse[i]? := by
  rw [List.reverse_cons]
  by_cases before : i < seen.length
  · rw [List.getElem?_append_left (by simpa using before)]
    exact passed.walked i before
  · obtain rfl : i = seen.length := by omega
    rw [List.getElem?_append_right (by simp), List.length_reverse, Nat.sub_self]
    exact passed.here

theorem apart (passed : cascade.Passed scope seen current) :
    cascade.ApartBefore scope seen.length := by
  rw [← List.length_reverse]
  refine .of_distinct (fun i before => passed.walked i (by simpa using before)) ?_
  rw [List.map_reverse]
  exact List.nodup_reverse.mpr passed.distinct

/-- One step further, to the parent of a layer that has not been met. -/
theorem next {parent : Path} {next : Layer} (passed : cascade.Passed scope seen current)
    (fresh : ¬ seen.any (·.scope.same current.scope) = true)
    (named : current.parent = some parent) (found : cascade.get? parent = some next) :
    cascade.Passed scope (current :: seen) next := by
  rw [seen_iff] at fresh
  refine ⟨fun i within => passed.ancestor?_eq within, ?_, .cons fresh passed.distinct⟩
  exact (ancestor?_of_parent passed.here named).trans found

end Passed

/-- The chain is the walk from the scope, to a layer without a parent. -/
structure IsWalk (cascade : Cascade) (scope : Path) (chain : List Layer) : Prop where
  walked : ∀ i, chain[i]? = cascade.ancestor? scope i
  top : ∃ last, chain.getLast? = some last ∧ last.parent = none
  distinct : chain.Pairwise fun layer later => layer.scope.same later.scope = false

/-- At a layer without a parent the layers passed are the whole walk. -/
theorem Passed.isWalk {seen : List Layer} {current : Layer}
    (passed : cascade.Passed scope seen current)
    (fresh : ¬ seen.any (·.scope.same current.scope) = true) (top : current.parent = none) :
    cascade.IsWalk scope (current :: seen).reverse ∧ cascade.ReachesTop scope := by
  -- `seen` holds what was passed, nearest last, so its reversal is in the order of the walk.
  have distinct : ((current :: seen).reverse.map Layer.identity).Nodup := by
    rw [List.map_reverse, List.nodup_reverse]
    exact .cons (mt seen_iff.mpr fresh) passed.distinct
  refine ⟨⟨fun i => ?_, ⟨current, by simp, top⟩, ?_⟩, seen.length, current, passed.here, top, ?_⟩
  · by_cases within : i < seen.length + 1
    · exact (passed.ancestor?_eq within).symm
    · have ended := ancestor?_of_le (ancestor?_of_top passed.here top) (Nat.le_of_not_lt within)
      rw [ended]
      exact List.getElem?_eq_none (by simpa using within)
  · refine (List.pairwise_map.mp distinct).imp fun different => ?_
    rw [← Bool.not_eq_true, Path.same_iff]
    exact different
  · have length : (current :: seen).reverse.length = seen.length + 1 := by simp
    rw [← length]
    exact .of_distinct (fun i before => passed.ancestor?_eq (length ▸ before)) distinct

/-- What follows from the layers passed so far comes to the end of the walk, or to a failure of
it, whatever the bound is as long as there are not so many layers. -/
theorem chainFrom_comes {seen : List Layer} {current : Layer} {fuel : Nat}
    (passed : cascade.Passed scope seen current)
    (enough : cascade.layers.length < fuel + seen.length) :
    (∃ chain, cascade.chainFrom seen current fuel = .ok chain ∧ cascade.IsWalk scope chain ∧
        cascade.ReachesTop scope) ∨
      ∃ error, cascade.chainFrom seen current fuel = .error error ∧
        cascade.Fails scope error := by
  induction fuel generalizing seen current with
  | zero =>
    have := passed.length_le
    omega
  | succ fuel ih =>
    rw [chainFrom]
    split
    next known =>
      -- The layer under a scope that was met is the one that was passed there.
      obtain ⟨other, member, same⟩ := List.any_eq_true.mp known
      obtain ⟨i, inside, found⟩ := List.mem_iff_getElem.mp (List.mem_reverse.mpr member)
      have before : i < seen.length := by simpa using inside
      have met := passed.walked i before
      rw [List.getElem?_eq_getElem inside, found] at met
      obtain rfl := ancestor?_eq_of_same met passed.here same
      exact Or.inr ⟨_, rfl, .cycle before met passed.here passed.apart⟩
    next fresh =>
      split
      next top => exact Or.inl ⟨_, rfl, passed.isWalk fresh top⟩
      next parent named =>
        split
        next absent =>
          have absent := contains_eq_false_iff.mpr absent
          refine Or.inr ⟨_, rfl, .missing passed.here named absent ?_⟩
          exact fun earlier before => parent_of_earlier passed.here before
        next next found =>
          refine ih (passed.next fresh named found) ?_
          rw [List.length_cons]
          omega

theorem chain_comes (cascade : Cascade) (scope : Path) :
    (∃ chain, cascade.chain scope = .ok chain ∧ cascade.IsWalk scope chain ∧
        cascade.ReachesTop scope) ∨
      ∃ error, cascade.chain scope = .error error ∧ cascade.Fails scope error := by
  unfold Cascade.chain
  split
  next absent => exact Or.inr ⟨_, rfl, .unknown (contains_eq_false_iff.mpr absent)⟩
  next first found =>
    exact chainFrom_comes (.start found) (Nat.lt_succ_self _)

theorem chain_eq_error_iff {error : Error} :
    cascade.chain scope = .error error ↔ cascade.Fails scope error := by
  constructor
  · intro failed
    rcases cascade.chain_comes scope with ⟨chain, followed, -⟩ | ⟨error', failed', fails⟩
    · cases failed.symm.trans followed
    · cases failed.symm.trans failed'
      exact fails
  · intro fails
    rcases cascade.chain_comes scope with ⟨chain, -, -, reaches⟩ | ⟨error', failed, fails'⟩
    · exact absurd fails reaches.not_fails
    · rw [failed, fails.unique fails']

theorem isWalk_of_chain {chain : List Layer} (followed : cascade.chain scope = .ok chain) :
    cascade.IsWalk scope chain ∧ cascade.ReachesTop scope := by
  rcases cascade.chain_comes scope with ⟨chain', followed', found⟩ | ⟨error, failed, -⟩
  · cases followed.symm.trans followed'
    exact found
  · cases followed.symm.trans failed

theorem exists_chain_of_reachesTop (reaches : cascade.ReachesTop scope) :
    ∃ chain, cascade.chain scope = .ok chain := by
  rcases cascade.chain_comes scope with ⟨chain, followed, -⟩ | ⟨error, -, fails⟩
  · exact ⟨chain, followed⟩
  · exact absurd fails reaches.not_fails

/-- A larger bound on the number of steps makes no difference. -/
theorem chainFrom_eq_chain {fuel : Nat} (found : cascade.get? scope = some layer)
    (enough : cascade.layers.length < fuel) :
    cascade.chainFrom [] layer fuel = cascade.chain scope := by
  have enough : cascade.layers.length < fuel + ([] : List Layer).length := enough
  rcases chainFrom_comes (.start found) enough with
    ⟨chain, followed, walk, reaches⟩ | ⟨error, failed, fails⟩
  · obtain ⟨chain', followed'⟩ := exists_chain_of_reachesTop reaches
    have walk' := (isWalk_of_chain followed').1
    rw [followed, followed', List.ext_getElem? fun i => (walk.walked i).trans (walk'.walked i).symm]
  · rw [failed, chain_eq_error_iff.mpr fails]

/-- A scope that the walk meets twice leads back to itself. -/
theorem Fails.leads_back {again : Path} (fails : cascade.Fails scope (.cycle again)) :
    ∃ steps layer, cascade.ancestor? again (steps + 1) = some layer ∧ layer.scope = again := by
  cases fails with
  | @cycle first again layer before met met' =>
    obtain ⟨more, rfl⟩ := Nat.exists_eq_add_of_lt before
    refine ⟨more, layer, ?_, rfl⟩
    rw [← ancestor?_add met, ← met']
    rfl

/-- Behind the first layer of a chain stands the chain of the second one. -/
theorem chain_of_second {second : Layer} {rest : List Layer}
    (followed : cascade.chain scope = .ok (layer :: second :: rest)) :
    cascade.chain second.scope = .ok (second :: rest) := by
  obtain ⟨first, -, chained, distinct⟩ := chain_eq_ok_iff.mp followed
  cases chained with
  | @step _ next _ _ named found chained =>
    obtain rfl : next = second := by cases chained <;> rfl
    have stands := (get?_congr (get?_eq_some found).2).trans found
    exact chain_eq_ok_iff.mpr ⟨_, stands, chained, (List.nodup_cons.mp distinct).2⟩

/-- Whatever layers have been inserted, the chain of a scope is found within as many steps as there
are layers. It is the walk along parents, if that comes to a layer without a parent and meets no
scope twice; otherwise the error says where and why the walk fails. -/
theorem chain_exact (inserted : List Layer) (scope : Path) :
    let cascade := ofInserted inserted
    (∀ asked, cascade.get? asked = inserted.reverse.find? (·.scope.same asked)) ∧
    (∀ first fuel, cascade.get? scope = some first → cascade.layers.length < fuel →
      cascade.chainFrom [] first fuel = cascade.chain scope) ∧
    ((∃ chain, cascade.chain scope = .ok chain) ↔ cascade.ReachesTop scope) ∧
    (∀ chain, cascade.chain scope = .ok chain → cascade.IsWalk scope chain ∧
      ∀ first second rest, chain = first :: second :: rest →
        cascade.chain second.scope = .ok (second :: rest)) ∧
    (∀ error, cascade.chain scope = .error error ↔ cascade.Fails scope error) ∧
    (∀ again, cascade.chain scope = .error (.cycle again) → ∃ steps layer,
      cascade.ancestor? again (steps + 1) = some layer ∧ layer.scope = again) := by
  intro cascade
  refine ⟨get?_ofInserted inserted, fun first fuel found enough => chainFrom_eq_chain found enough,
    ⟨?_, exists_chain_of_reachesTop⟩, fun chain followed => ⟨(isWalk_of_chain followed).1, ?_⟩,
    fun error => chain_eq_error_iff, fun again failed => (chain_eq_error_iff.mp failed).leads_back⟩
  · rintro ⟨chain, followed⟩
    exact (isWalk_of_chain followed).2
  · rintro first second rest rfl
    exact chain_of_second followed

/-- The start of a walk need not be on the cycle that the walk runs into. -/
example : (ofInserted [{ scope := ⟨"/a"⟩, parent := some ⟨"/b"⟩ },
      { scope := ⟨"/b"⟩, parent := some ⟨"/c"⟩ },
      { scope := ⟨"/c"⟩, parent := some ⟨"//b"⟩ }]).chain ⟨"/a"⟩ = .error (.cycle ⟨"/b"⟩) := by
  cbv

end Cascade

end SuiteRunner.Config
