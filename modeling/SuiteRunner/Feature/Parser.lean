import SuiteRunner.Feature.Expr
import SuiteRunner.Feature.Token

/-!
# Reading feature expressions

The grammar, from loosest to tightest binding:

    disjunction := conjunction (`||` conjunction)*
    conjunction := negation (`&&` negation)*
    negation    := `!` negation | operand
    operand     := `(` disjunction `)` | `*` | `always` | name

Both chains group to the left. Every reader below returns the expression together
with the tokens it left, and the proof that at least one token was used is part of
its result; that proof is what ends the recursion.
-/

namespace SuiteRunner.Feature

/-- An expression read from the beginning of `input`, and what follows it. -/
structure Parsed (input : List PlacedToken) where
  expr : Expr
  rest : List PlacedToken
  shorter : rest.length < input.length

namespace Parsed

/-- Use a result for a longer input. -/
def within {shorterInput : List PlacedToken} (parsed : Parsed shorterInput)
    (input : List PlacedToken) (h : shorterInput.length ≤ input.length) : Parsed input :=
  ⟨parsed.expr, parsed.rest, Nat.lt_of_lt_of_le parsed.shorter h⟩

def mapExpr {input : List PlacedToken} (f : Expr → Expr) (parsed : Parsed input) : Parsed input :=
  ⟨f parsed.expr, parsed.rest, parsed.shorter⟩

end Parsed

/-- The expression that a name alone stands for. -/
def Expr.ofName (name : String) : Expr :=
  if name = "always" then .always else .feature name

def SyntaxError.unexpected (found : PlacedToken) : SyntaxError :=
  .unexpectedToken found.token.text found.column

mutual

def disjunction (input : List PlacedToken) : Except SyntaxError (Parsed input) :=
  match conjunction input with
  | .error e => .error e
  | .ok first =>
    have := first.shorter
    disjunctionTail input first
termination_by (input.length, 4)

/-- Extend `left` by the `||` operands that follow it. -/
def disjunctionTail (input : List PlacedToken) (left : Parsed input) :
    Except SyntaxError (Parsed input) :=
  match found : left.rest with
  | ⟨.or, _⟩ :: rest =>
    have used : rest.length < input.length := by
      have := left.shorter; rw [found] at this; simp only [List.length_cons] at this; omega
    match conjunction rest with
    | .error e => .error e
    | .ok right =>
      disjunctionTail input
        ⟨.or left.expr right.expr, right.rest, Nat.lt_trans right.shorter used⟩
  | _ => .ok left
termination_by (left.rest.length, 3)
decreasing_by
  · rw [found]; exact Prod.Lex.left _ _ (by simp)
  · rw [found]
    exact Prod.Lex.left _ _ (by have := right.shorter; simp only [List.length_cons]; omega)

def conjunction (input : List PlacedToken) : Except SyntaxError (Parsed input) :=
  match negation input with
  | .error e => .error e
  | .ok first =>
    have := first.shorter
    conjunctionTail input first
termination_by (input.length, 2)

/-- Extend `left` by the `&&` operands that follow it. -/
def conjunctionTail (input : List PlacedToken) (left : Parsed input) :
    Except SyntaxError (Parsed input) :=
  match found : left.rest with
  | ⟨.and, _⟩ :: rest =>
    have used : rest.length < input.length := by
      have := left.shorter; rw [found] at this; simp only [List.length_cons] at this; omega
    match negation rest with
    | .error e => .error e
    | .ok right =>
      conjunctionTail input
        ⟨.and left.expr right.expr, right.rest, Nat.lt_trans right.shorter used⟩
  | _ => .ok left
termination_by (left.rest.length, 2)
decreasing_by
  · rw [found]; exact Prod.Lex.left _ _ (by simp)
  · rw [found]
    exact Prod.Lex.left _ _ (by have := right.shorter; simp only [List.length_cons]; omega)

def negation (input : List PlacedToken) : Except SyntaxError (Parsed input) :=
  match input with
  | ⟨.not, _⟩ :: rest =>
    match negation rest with
    | .error e => .error e
    | .ok inner => .ok ((inner.mapExpr .not).within _ (by simp))
  | input => operand input
termination_by (input.length, 1)

def operand (input : List PlacedToken) : Except SyntaxError (Parsed input) :=
  match input with
  | [] => .error .unexpectedEnd
  | ⟨.star, _⟩ :: rest => .ok ⟨.always, rest, by simp⟩
  | ⟨.name text, _⟩ :: rest => .ok ⟨Expr.ofName text, rest, by simp⟩
  | ⟨.opening, column⟩ :: rest =>
    match disjunction rest with
    | .error e => .error e
    | .ok inner =>
      match found : inner.rest with
      | ⟨.closing, _⟩ :: after =>
        .ok ⟨inner.expr, after, by
          have := inner.shorter
          rw [found] at this
          simp only [List.length_cons] at this ⊢
          omega⟩
      | other :: _ => .error (.unexpected other)
      | [] => .error (.unclosedParenthesis column)
  | other :: _ => .error (.unexpected other)
termination_by (input.length, 0)

end

/-- Read a whole token sequence as one expression. -/
def Expr.ofTokens (input : List PlacedToken) : Except SyntaxError Expr :=
  match disjunction input with
  | .error e => .error e
  | .ok parsed =>
    match parsed.rest with
    | [] => .ok parsed.expr
    | other :: _ => .error (.unexpected other)

/-- Read an expression. -/
def Expr.parse (source : String) : Except SyntaxError Expr :=
  match tokens source with
  | .error e => .error e
  | .ok found => Expr.ofTokens found

end SuiteRunner.Feature
