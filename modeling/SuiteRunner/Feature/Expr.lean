/-!
# Feature expressions

A feature expression is a boolean formula over named features. Evaluation asks a
predicate about names from left to right and stops as soon as the value is settled,
so the names it asks for are part of what an expression means; `asked` lists them.
-/

namespace SuiteRunner.Feature

inductive Expr where
  | always
  | feature (name : String)
  | not (inner : Expr)
  | and (left right : Expr)
  | or (left right : Expr)
  deriving DecidableEq, Repr

namespace Expr

def evaluate (holds : String → Bool) : Expr → Bool
  | always => true
  | feature name => holds name
  | not inner => !inner.evaluate holds
  | and left right => left.evaluate holds && right.evaluate holds
  | or left right => left.evaluate holds || right.evaluate holds

/-- The names that evaluation asks about, in the order of asking. -/
def asked (holds : String → Bool) : Expr → List String
  | always => []
  | feature name => [name]
  | not inner => inner.asked holds
  | and left right =>
    if left.evaluate holds then left.asked holds ++ right.asked holds else left.asked holds
  | or left right =>
    if left.evaluate holds then left.asked holds else left.asked holds ++ right.asked holds

/-! ### Written form -/

def isCompound : Expr → Bool
  | and _ _ | or _ _ => true
  | _ => false

def isDisjunction : Expr → Bool
  | or _ _ => true
  | _ => false

def parenthesised (needed : Bool) (text : String) : String :=
  if needed then "(" ++ text ++ ")" else text

/-- The written form, with parentheses only where precedence needs them. Chains of one
operator are written without any, so reading them back groups them to the left. -/
def text : Expr → String
  | always => "*"
  | feature name => name
  | not inner => "!" ++ parenthesised inner.isCompound inner.text
  | and left right =>
    parenthesised left.isDisjunction left.text ++ " && " ++
      parenthesised right.isDisjunction right.text
  | or left right => left.text ++ " || " ++ right.text

/-- The tree in operator-first form: `(and x (not y))`. -/
def tree : Expr → String
  | always => "*"
  | feature name => name
  | not inner => "(not " ++ inner.tree ++ ")"
  | and left right => "(and " ++ left.tree ++ " " ++ right.tree ++ ")"
  | or left right => "(or " ++ left.tree ++ " " ++ right.tree ++ ")"

end Expr

end SuiteRunner.Feature
