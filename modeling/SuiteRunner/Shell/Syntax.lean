/-!
# Shell commands

The commands of the shell language as they are written, before anything is expanded. What
a substitution contains is kept as text, since it is read only when it is expanded.
-/

namespace SuiteRunner.Shell

/-- What is made of the value of a parameter. With `orEmpty`, an empty value counts as none. -/
inductive ParameterUse where
  | value
  | length
  | fallback (orEmpty : Bool) (word : String)
  | assign (orEmpty : Bool) (word : String)
  | instead (orEmpty : Bool) (word : String)
  | complain (orEmpty : Bool) (word : String)
  | withoutEnd (longest : Bool) (pattern : String)
  | withoutStart (longest : Bool) (pattern : String)
  deriving DecidableEq, Repr

inductive PartKind where
  | text (text : String)
  | parameter (name : String) (use : ParameterUse)
  | output (script : String)
  | arithmetic (expression : String)
  deriving DecidableEq, Repr

/-- A part of a word; what is quoted is neither split nor taken for a pattern. -/
structure Part where
  kind : PartKind
  quoted : Bool
  deriving DecidableEq, Repr

abbrev Word : Type := List Part

inductive RedirectKind where
  | input
  | output
  | append
  | duplicate
  /-- The target is the content itself. -/
  | content
  deriving DecidableEq, Repr

structure Redirect where
  descriptor : Nat
  kind : RedirectKind
  target : Word
  deriving DecidableEq, Repr

inductive Command where
  | nothing
  | simple (assignments : List (String × Word)) (words : List Word)
  | redirected (command : Command) (redirects : List Redirect)
  | sequence (first second : Command)
  | background (command : Command)
  | both (first second : Command)
  | either (first second : Command)
  | negated (command : Command)
  | pipe (source target : Command)
  | subshell (command : Command)
  | conditional (condition yes no : Command)
  /-- Repeats its body for as long as the condition has the wanted outcome. -/
  | loop (wanted : Bool) (condition body : Command)
  /-- Repeats its body for each of the words, or each argument of the shell. -/
  | forEach (name : String) (words : Option (List Word)) (body : Command)
  | choose (word : Word) (patterns : List Word) (body rest : Command)
  | function (name : String) (body : Command)
  /-- Stands where a script cannot be read any further. -/
  | malformed
  deriving DecidableEq, Repr

end SuiteRunner.Shell
