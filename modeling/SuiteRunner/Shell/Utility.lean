import SuiteRunner.Shell.Condition
import SuiteRunner.Shell.Utility.Content
import SuiteRunner.Shell.Utility.Files

/-!
# Utilities by name
-/

namespace SuiteRunner.Shell

/-- A condition as a program: the status says whether it holds. -/
def testWords (call : Call) (words : List String) : Answer :=
  match condition? call.tree words with
  | some holds => call.answer .empty (if holds then 0 else 1)
  | none => call.complain "test: unexpected operator" 2

/-- The utility of a name. -/
def utility? : String → Option (Call → Answer)
  | "true" => some fun call => call.answer .empty 0
  | "false" => some fun call => call.answer .empty 1
  | "echo" => some fun call => call.answer (echo call.arguments) 0
  | "printf" => some fun call => call.answer (printf call.arguments) 0
  | "test" => some fun call => testWords call call.arguments
  | "[" => some fun call => testWords call (call.arguments.dropLast)
  | "cat" => some cat
  | "grep" => some grep
  | "egrep" => some fun call => grep { call with arguments := "-E" :: call.arguments }
  | "fgrep" => some fun call => grep { call with arguments := "-F" :: call.arguments }
  | "head" => some head
  | "tail" => some tail
  | "wc" => some wc
  | "tr" => some tr
  | "sort" => some sort
  | "uniq" => some uniq
  | "seq" => some seq
  | "basename" => some basename
  | "dirname" => some dirname
  | "touch" => some touch
  | "rm" => some rm
  | "mkdir" => some mkdir
  | "rmdir" => some rmdir
  | "cp" => some cp
  | "mv" => some mv
  | "ln" => some ln
  | "chmod" => some chmod
  | "ls" => some ls
  | "tee" => some tee
  | "cmp" => some cmp
  | "dd" => some dd
  | "printenv" => some printenv
  | "pwd" => some fun call => call.print (call.tree.workingDirectory.path.text ++ "\n") 0
  | _ => none

end SuiteRunner.Shell
