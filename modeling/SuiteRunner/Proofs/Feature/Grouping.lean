import SuiteRunner.Feature.Expr

/-!
# Chains grouped to the left

A chain of one operator can be grouped in several ways, which all mean the same and are all
written in the same way. To group it to the left is to move parentheses to the front as long as
that is possible.
-/

namespace SuiteRunner.Feature

inductive Operator where
  | and
  | or
  deriving DecidableEq, Repr

namespace Operator

def join : Operator → Expr → Expr → Expr
  | and => .and
  | or => .or

/-- Whether the operator stands at the top of an expression. -/
def heads : Operator → Expr → Bool
  | and, .and _ _ => true
  | or, .or _ _ => true
  | _, _ => false

/-- A chain of one operator with the operands of another one behind its own; the whole is grouped to
the left as far as the operands of the second chain are concerned. -/
def chain : Operator → Expr → Expr → Expr
  | and, left, .and first last => .and (chain and left first) last
  | or, left, .or first last => .or (chain or left first) last
  | operator, left, last => operator.join left last

end Operator

namespace Expr

/-- The expression with every chain of one operator grouped to the left. -/
def leftGrouped : Expr → Expr
  | always => always
  | feature name => feature name
  | not inner => not inner.leftGrouped
  | and left right => Operator.and.chain left.leftGrouped right.leftGrouped
  | or left right => Operator.or.chain left.leftGrouped right.leftGrouped

/-- No right operand of an operator has the same operator at its top. -/
def IsLeftGrouped : Expr → Prop
  | always | feature _ => True
  | not inner => inner.IsLeftGrouped
  | and left right =>
    left.IsLeftGrouped ∧ right.IsLeftGrouped ∧ Operator.and.heads right = false
  | or left right =>
    left.IsLeftGrouped ∧ right.IsLeftGrouped ∧ Operator.or.heads right = false

/-- The second expression is the first one with some parentheses in chains of one operator moved to
the front. -/
inductive Regroups : Expr → Expr → Prop where
  | refl (e : Expr) : Regroups e e
  | trans {e e' e'' : Expr} (first : Regroups e e') (second : Regroups e' e'') : Regroups e e''
  | not {inner inner' : Expr} (inside : Regroups inner inner') :
      Regroups (.not inner) (.not inner')
  | join (operator : Operator) {left left' right right' : Expr} (before : Regroups left left')
      (behind : Regroups right right') :
      Regroups (operator.join left right) (operator.join left' right')
  | assoc (operator : Operator) (a b c : Expr) :
      Regroups (operator.join a (operator.join b c)) (operator.join (operator.join a b) c)

end Expr

/-! ### Chains -/

namespace Operator

variable {operator : Operator} {left right : Expr}

theorem heads_iff : operator.heads right = true ↔ ∃ a b, right = operator.join a b := by
  cases operator <;> cases right <;> simp [heads, join]

@[simp] theorem heads_join (operator other : Operator) (left right : Expr) :
    operator.heads (other.join left right) = (operator == other) := by
  cases operator <;> cases other <;> rfl

theorem chain_join (operator : Operator) (left first last : Expr) :
    operator.chain left (operator.join first last) =
      operator.join (operator.chain left first) last := by
  cases operator <;> rfl

theorem chain_of_single (single : operator.heads right = false) :
    operator.chain left right = operator.join left right := by
  cases operator <;> cases right <;> first | rfl | cases single

/-- Along a chain: an expression has the operator at its top and a shorter chain in front of it, or
it is no chain. -/
theorem chain_induction (operator : Operator) {motive : Expr → Prop}
    (single : ∀ e, operator.heads e = false → motive e)
    (join : ∀ first last, motive first → motive last → motive (operator.join first last))
    (e : Expr) : motive e := by
  induction e with
  | always | feature | not => exact single _ (by cases operator <;> rfl)
  | and first last ih ih' =>
    cases operator with
    | and => exact join first last ih ih'
    | or => exact single _ rfl
  | or first last ih ih' =>
    cases operator with
    | and => exact single _ rfl
    | or => exact join first last ih ih'

theorem heads_chain (operator other : Operator) (left right : Expr) :
    other.heads (operator.chain left right) = (other == operator) := by
  cases heads : operator.heads right with
  | false => rw [chain_of_single heads, heads_join]
  | true =>
    obtain ⟨first, last, rfl⟩ := heads_iff.mp heads
    rw [chain_join, heads_join]

theorem chain_assoc (operator : Operator) (a b c : Expr) :
    operator.chain (operator.chain a b) c = operator.chain a (operator.chain b c) := by
  induction c using operator.chain_induction with
  | single c single => rw [chain_of_single single, chain_of_single single, chain_join]
  | join first last ih _ => rw [chain_join, ih, chain_join, chain_join]

theorem chain_isLeftGrouped (grouped : left.IsLeftGrouped) (grouped' : right.IsLeftGrouped) :
    (operator.chain left right).IsLeftGrouped := by
  induction right using operator.chain_induction with
  | single right single =>
    rw [chain_of_single single]
    cases operator <;> exact ⟨grouped, grouped', single⟩
  | join first last ih _ =>
    rw [chain_join]
    cases operator <;> exact ⟨ih grouped'.1, grouped'.2⟩

theorem regroups_chain (operator : Operator) (left right : Expr) :
    Expr.Regroups (operator.join left right) (operator.chain left right) := by
  induction right using operator.chain_induction with
  | single right single =>
    rw [chain_of_single single]
    exact .refl _
  | join first last ih _ =>
    rw [chain_join]
    exact .trans (.assoc operator left first last) (.join operator ih (.refl last))

end Operator

namespace Expr

theorem leftGrouped_join (operator : Operator) (left right : Expr) :
    (operator.join left right).leftGrouped =
      operator.chain left.leftGrouped right.leftGrouped := by
  cases operator <;> rfl

theorem heads_leftGrouped (operator : Operator) (e : Expr) :
    operator.heads e.leftGrouped = operator.heads e := by
  cases e with
  | always | feature | not => cases operator <;> rfl
  | and left right =>
    exact (Operator.and.heads_chain operator _ _).trans (by cases operator <;> rfl)
  | or left right => exact (Operator.or.heads_chain operator _ _).trans (by cases operator <;> rfl)

theorem leftGrouped_isLeftGrouped (e : Expr) : e.leftGrouped.IsLeftGrouped := by
  induction e with
  | always | feature => trivial
  | not inner ih => exact ih
  | and left right ih ih' => exact Operator.chain_isLeftGrouped ih ih'
  | or left right ih ih' => exact Operator.chain_isLeftGrouped ih ih'

theorem regroups_leftGrouped (e : Expr) : Regroups e e.leftGrouped := by
  induction e with
  | always | feature => exact .refl _
  | not inner ih => exact .not ih
  | and left right ih ih' => exact .trans (.join .and ih ih') (Operator.regroups_chain .and _ _)
  | or left right ih ih' => exact .trans (.join .or ih ih') (Operator.regroups_chain .or _ _)

theorem leftGrouped_of_isLeftGrouped {e : Expr} (grouped : e.IsLeftGrouped) :
    e.leftGrouped = e := by
  induction e with
  | always | feature => rfl
  | not inner ih => exact congrArg Expr.not (ih grouped)
  | and left right ih ih' =>
    rw [leftGrouped, ih grouped.1, ih' grouped.2.1]
    exact Operator.chain_of_single grouped.2.2
  | or left right ih ih' =>
    rw [leftGrouped, ih grouped.1, ih' grouped.2.1]
    exact Operator.chain_of_single grouped.2.2

theorem Regroups.leftGrouped {e e' : Expr} (regroups : Regroups e e') :
    e'.leftGrouped = e.leftGrouped := by
  induction regroups with
  | refl => rfl
  | trans _ _ ih ih' => exact ih'.trans ih
  | not _ ih => exact congrArg Expr.not ih
  | join operator _ _ ih ih' => rw [leftGrouped_join, leftGrouped_join, ih, ih']
  | assoc operator a b c => simp only [leftGrouped_join, Operator.chain_assoc]

/-- There is one way to group to the left. -/
theorem eq_leftGrouped_iff {e e' : Expr} :
    e' = e.leftGrouped ↔ Regroups e e' ∧ e'.IsLeftGrouped := by
  constructor
  · rintro rfl
    exact ⟨regroups_leftGrouped e, leftGrouped_isLeftGrouped e⟩
  · rintro ⟨regroups, grouped⟩
    rw [← regroups.leftGrouped, leftGrouped_of_isLeftGrouped grouped]

/-! ### What regrouping keeps -/

/-- Whatever way a chain is grouped, its operands are asked in order until the value is settled. -/
theorem Regroups.meaning {e e' : Expr} (regroups : Regroups e e') (holds : String → Bool) :
    e'.evaluate holds = e.evaluate holds ∧ e'.asked holds = e.asked holds := by
  induction regroups with
  | refl => exact ⟨rfl, rfl⟩
  | trans _ _ ih ih' => exact ⟨ih'.1.trans ih.1, ih'.2.trans ih.2⟩
  | not _ ih => exact ⟨congrArg Bool.not ih.1, ih.2⟩
  | join operator _ _ ih ih' =>
    cases operator <;> simp only [Operator.join, evaluate, asked, ih, ih', and_self]
  | assoc operator a b c =>
    cases operator <;> cases first : a.evaluate holds <;> cases second : b.evaluate holds <;>
      simp [Operator.join, evaluate, asked, first, second]

/-- How the operands of an operator are written. -/
def operandText : Operator → Expr → String
  | .and, e => parenthesised e.isDisjunction e.text
  | .or, e => e.text

end Expr

def Operator.mark : Operator → String
  | and => " && "
  | or => " || "

namespace Expr

theorem text_join (operator : Operator) (left right : Expr) :
    (operator.join left right).text =
      operandText operator left ++ operator.mark ++ operandText operator right := by
  cases operator <;> rfl

/-- An operand with the same operator at its top needs no parentheses. -/
theorem operandText_join (operator : Operator) (left right : Expr) :
    operandText operator (operator.join left right) = (operator.join left right).text := by
  cases operator <;> rfl

theorem isCompound_eq_heads (e : Expr) :
    e.isCompound = (Operator.and.heads e || Operator.or.heads e) := by
  cases e <;> rfl

theorem isDisjunction_eq_heads (e : Expr) : e.isDisjunction = Operator.or.heads e := by
  cases e <;> rfl

theorem Regroups.heads {e e' : Expr} (regroups : Regroups e e') (operator : Operator) :
    operator.heads e' = operator.heads e := by
  induction regroups with
  | refl => rfl
  | trans _ _ ih ih' => exact ih'.trans ih
  | not _ _ => cases operator <;> rfl
  | join other _ _ _ _ => rw [Operator.heads_join, Operator.heads_join]
  | assoc other a b c => rw [Operator.heads_join, Operator.heads_join]

theorem Regroups.isCompound {e e' : Expr} (regroups : Regroups e e') :
    e'.isCompound = e.isCompound := by
  rw [isCompound_eq_heads, isCompound_eq_heads, regroups.heads, regroups.heads]

theorem Regroups.operandText {e e' : Expr} (regroups : Regroups e e') (same : e'.text = e.text)
    (operator : Operator) : e'.operandText operator = e.operandText operator := by
  cases operator with
  | and =>
    simp only [Expr.operandText]
    rw [isDisjunction_eq_heads, isDisjunction_eq_heads, regroups.heads, same]
  | or => exact same

/-- Whatever way a chain is grouped, it is written without the parentheses. -/
theorem Regroups.text {e e' : Expr} (regroups : Regroups e e') : e'.text = e.text := by
  induction regroups with
  | refl => rfl
  | trans _ _ ih ih' => exact ih'.trans ih
  | not inside ih => simp only [Expr.text, inside.isCompound, ih]
  | join operator before behind ih ih' =>
    rw [text_join, text_join, before.operandText ih, behind.operandText ih']
  | assoc operator a b c =>
    rw [text_join, operandText_join, text_join, text_join _ a, operandText_join, text_join]
    simp only [String.append_assoc]

end Expr

end SuiteRunner.Feature
