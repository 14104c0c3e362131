import SuiteRunner.Shell.Utility.Basic

/-!
# Conditions

The conditions on texts, numbers and files that `test` decides.
-/

namespace SuiteRunner.Shell

open Files

def compareNumbers (operator : String) (a b : Int) : Option Bool :=
  match operator with
  | "-eq" => some (a == b)
  | "-ne" => some (a != b)
  | "-lt" => some (a < b)
  | "-le" => some (a ≤ b)
  | "-gt" => some (a > b)
  | "-ge" => some (a ≥ b)
  | _ => none

def unaryTest (tree : FileTree) (operator operand : String) : Option Bool :=
  let path : Path := ⟨operand⟩
  match operator with
  | "-n" => some (!operand.isEmpty)
  | "-z" => some operand.isEmpty
  | "-e" | "-r" | "-w" => some (tree.find path).isOk
  | "-f" => some (tree.isFile path)
  | "-d" => some (tree.isDirectory path)
  | "-x" => some (tree.isExecutable path || tree.isDirectory path)
  | "-s" => some ((tree.read path).toOption.any (0 < ·.size))
  | "-h" | "-L" =>
    some (match tree.locate path ⟨false, false⟩ with
      | .ok place => match tree.entry? place with
        | some (.link _) => true
        | _ => false
      | .error _ => false)
  | "-t" => some false
  | _ => none

/-- Whether a single condition holds; `none` if it is none. -/
def singleCondition? (tree : FileTree) (words : List String) : Option Bool :=
  match words with
  | [] => some false
  | [word] => some (!word.isEmpty)
  | ["!", word] => some word.isEmpty
  | [operator, operand] => unaryTest tree operator operand
  | [a, "=", b] => some (a == b)
  | [a, "!=", b] => some (a != b)
  | ["!", operator, operand] => (unaryTest tree operator operand).map (!·)
  | [a, operator, b] => do compareNumbers operator (← integer? a) (← integer? b)
  | "!" :: rest => (singleCondition? tree rest).map (!·)
  | _ => none

/-- The words between those that are `separator`. -/
def separated (separator : String) : List String → List (List String)
  | [] => [[]]
  | word :: words =>
    match separated separator words with
    | group :: groups =>
      if word = separator then [] :: group :: groups else (word :: group) :: groups
    | [] => [[word]]

/-- Whether a condition holds, which may be put together with `-o` and `-a`; `none` if it is no
condition. -/
def condition? (tree : FileTree) (words : List String) : Option Bool :=
  match singleCondition? tree words with
  | some holds => some holds
  | none => do
    let both (words : List String) : Option Bool := do
      return (← (separated "-a" words).mapM (singleCondition? tree)).all id
    return (← (separated "-o" words).mapM both).any id

end SuiteRunner.Shell
