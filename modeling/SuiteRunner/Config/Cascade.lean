import SuiteRunner.Config.Effective
import SuiteRunner.Config.Error

/-!
# The cascade

All layers that have been loaded, one for each scope. A layer names its parent by scope,
and the chain of a layer follows these names to a layer without a parent. A chain that
meets a scope for the second time is a cycle; since there are only so many scopes, no
chain is longer than the cascade has layers.
-/

namespace SuiteRunner.Config

structure Cascade where
  layers : List Layer := []

namespace Cascade

def get? (cascade : Cascade) (scope : Path) : Option Layer :=
  cascade.layers.find? (·.scope.same scope)

def contains (cascade : Cascade) (scope : Path) : Bool := (cascade.get? scope).isSome

/-- Add a layer in the place of the one with the same scope, if there is one. -/
def insert (cascade : Cascade) (layer : Layer) : Cascade :=
  ⟨layer :: cascade.layers.filter fun other => !other.scope.same layer.scope⟩

/-- Go on from `current` to the end of its chain; `seen` holds the layers passed so far, the
latest first. The bound `fuel` is one more than the number of layers. -/
def chainFrom (cascade : Cascade) (seen : List Layer) (current : Layer) :
    (fuel : Nat) → Except Error (List Layer)
  | 0 => .error (.cycle current.scope)
  | fuel + 1 =>
    if seen.any (·.scope.same current.scope) then .error (.cycle current.scope)
    else
      match current.parent with
      | none => .ok (current :: seen).reverse
      | some parent =>
        match cascade.get? parent with
        | none => .error (.missingParent current.scope parent)
        | some next => cascade.chainFrom (current :: seen) next fuel

/-- The layers from `scope` up to the one without a parent. -/
def chain (cascade : Cascade) (scope : Path) : Except Error (List Layer) :=
  match cascade.get? scope with
  | none => .error (.unknownLayer scope)
  | some first => cascade.chainFrom [] first (cascade.layers.length + 1)

/-- The configuration in effect for `scope`. -/
def resolve (cascade : Cascade) (scope : Path) : Except Error EffectiveConfig :=
  (cascade.chain scope).map flatten

/-! ### Small laws -/

theorem get?_insert (cascade : Cascade) (layer : Layer) (scope : Path) :
    (cascade.insert layer).get? scope =
      if layer.scope.same scope then some layer else cascade.get? scope := by
  unfold insert get?
  rw [List.find?_cons]
  split
  next same => simp [same]
  next other =>
    simp only [other, Bool.false_eq_true, if_false]
    rw [List.find?_filter]
    congr 1
    funext other'
    by_cases h : other'.scope.same scope = true
    · have : other'.scope.same layer.scope = false := by
        rw [Bool.eq_false_iff]
        intro h'
        rw [Path.same_iff] at h h'
        rw [Bool.eq_false_iff] at other
        exact other (Path.same_iff.mpr (h'.symm.trans h))
      simp [this]
    · simp [h]

end Cascade

end SuiteRunner.Config
