import SuiteRunner.Shell.Reader

/-!
# Arithmetic

Whole-number expressions, in which a name stands for the number that a variable holds.
-/

namespace SuiteRunner.Shell

/-- The binary operators, a longer one before its beginnings, each with its rank; a higher
rank binds more tightly. -/
def arithmeticOperators : List (String × Nat) :=
  [("||", 1), ("&&", 2), ("==", 6), ("!=", 6), ("<=", 7), (">=", 7), ("<<", 8), (">>", 8), ("|", 3),
   ("^", 4), ("&", 5), ("<", 7), (">", 7), ("+", 9), ("-", 9), ("*", 10), ("/", 10), ("%", 10)]

def truth (holds : Bool) : Int := if holds then 1 else 0

def calculate? (operator : String) (a b : Int) : Option Int :=
  match operator with
  | "||" => some (truth (a != 0 || b != 0))
  | "&&" => some (truth (a != 0 && b != 0))
  | "==" => some (truth (a == b))
  | "!=" => some (truth (a != b))
  | "<=" => some (truth (a ≤ b))
  | ">=" => some (truth (a ≥ b))
  | "<" => some (truth (a < b))
  | ">" => some (truth (a > b))
  | "<<" => some (a * Int.pow 2 b.toNat)
  | ">>" => some (Int.fdiv a (Int.pow 2 b.toNat))
  | "|" => some (a.toNat ||| b.toNat)
  | "^" => some (a.toNat ^^^ b.toNat)
  | "&" => some (a.toNat &&& b.toNat)
  | "+" => some (a + b)
  | "-" => some (a - b)
  | "*" => some (a * b)
  | "/" => if b = 0 then none else some (Int.tdiv a b)
  | "%" => if b = 0 then none else some (Int.tmod a b)
  | _ => none

def skipBlanks (text : List Char) : List Char := text.dropWhile Char.isWhitespace

def binaryOperator? (text : List Char) : Option (String × Nat × List Char) :=
  arithmeticOperators.findSome? fun (operator, rank) =>
    (Text.after? operator.toList text).map fun rest => (operator, rank, rest)

mutual

/-- Read an expression whose operators have at least the given rank. -/
def expression? (value : String → Int) (fuel rank : Nat) (text : List Char) :
    Option (Int × List Char) :=
  match fuel with
  | 0 => none
  | fuel + 1 => do
    let (first, rest) ← operand? value fuel (skipBlanks text)
    expressionFrom? value fuel rank first rest

/-- Read on behind a first operand. -/
def expressionFrom? (value : String → Int) (fuel rank : Nat) (first : Int) (text : List Char) :
    Option (Int × List Char) :=
  match fuel with
  | 0 => none
  | fuel + 1 =>
    match binaryOperator? (skipBlanks text) with
    | some (operator, found, rest) =>
      if found < rank then some (first, text)
      else do
        let (second, rest) ← expression? value fuel (found + 1) rest
        expressionFrom? value fuel rank (← calculate? operator first second) rest
    | none => some (first, text)

def operand? (value : String → Int) (fuel : Nat) (text : List Char) : Option (Int × List Char) :=
  match fuel with
  | 0 => none
  | fuel + 1 =>
    match text with
    | '(' :: rest => do
      let (inside, rest) ← expression? value fuel 0 rest
      match skipBlanks rest with
      | ')' :: rest => return (inside, rest)
      | _ => none
    | '-' :: rest => (operand? value fuel (skipBlanks rest)).map fun (n, rest) => (-n, rest)
    | '+' :: rest => operand? value fuel (skipBlanks rest)
    | '!' :: rest =>
      (operand? value fuel (skipBlanks rest)).map fun (n, rest) => (truth (n == 0), rest)
    | c :: _ =>
      if c.isDigit then
        let digits := text.takeWhile Char.isDigit
        ((String.ofList digits).toNat?).map fun n => ((n : Int), text.drop digits.length)
      else if isNameStart c then
        let name := text.takeWhile isNameChar
        some (value (String.ofList name), text.drop name.length)
      else none
    | [] => none

end

/-- The value of an expression. -/
def arithmetic? (value : String → Int) (text : String) : Option Int :=
  if (skipBlanks text.toList).isEmpty then some 0
  else
    match expression? value (4 * text.length + 8) 0 text.toList with
    | some (n, rest) => if (skipBlanks rest).isEmpty then some n else none
    | none => none

end SuiteRunner.Shell
