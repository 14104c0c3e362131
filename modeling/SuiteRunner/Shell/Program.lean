import SuiteRunner.Shell.Machine
import SuiteRunner.Shell.Utility

/-!
# Programs by name

A program is looked for in the directories of the search path, unless its name is a path.
The directories of the system hold the shell and the utilities; any other file is a script
that names its interpreter in its first line.
-/

namespace SuiteRunner.Shell

open Files

inductive Program where
  | utility (name : String)
  | shell
  /-- A script, and its interpreter with its argument. -/
  | script (path : String) (interpreter : List String)
  deriving DecidableEq, Repr

def systemDirectories : List String :=
  ["/usr/local/sbin", "/usr/local/bin", "/usr/sbin", "/usr/bin", "/sbin", "/bin"]

def defaultSearchPath : String := ":".intercalate systemDirectories

/-- The utilities that have to do with time or with other programs. -/
def processUtilities : List String := ["sleep", "env", "timeout", "yes"]

def shellNames : List String := ["sh", "dash", "bash"]

/-- The program that the system has under a path of its own. -/
def systemProgram? (path : Path) : Option Program :=
  match path.parent?, path.fileName? with
  | some parent, some name =>
    if systemDirectories.contains parent.text then
      if shellNames.contains name then some .shell
      else if processUtilities.contains name || (utility? name).isSome then some (.utility name)
      else none
    else none
  | _, _ => none

/-- The interpreter that a script names behind the mark in its first line, and the one argument
that may follow. -/
def interpreterOf (content : ByteArray) : List String :=
  let isBlank (c : Char) : Bool := c == ' ' || c == '\t'
  match (linesOf content).head?.map String.toList with
  | some ('#' :: '!' :: rest) =>
    let rest := (((rest.dropWhile isBlank).reverse).dropWhile isBlank).reverse
    let interpreter := rest.takeWhile (!isBlank ·)
    let argument := (rest.drop interpreter.length).dropWhile isBlank
    ([interpreter, argument].filter (!·.isEmpty)).map String.ofList
  | _ => []

/-- The program in a file. -/
def programAt (tree : FileTree) (path : Path) : Except Failure Program :=
  match systemProgram? path with
  | some program => .ok program
  | none =>
    match tree.locate path {} with
    | .error cause => .error cause
    | .ok place =>
      match systemProgram? place.path, tree.entry? place with
      | some program, _ => .ok program
      | none, some (.file content true) => .ok (.script path.text (interpreterOf content))
      | none, _ => .error .permissionDenied

/-- Try the directories of a search path; what could be found but not be run is remembered. -/
def searchProgram (tree : FileTree) (name : String) (failure : Failure) :
    List String → Except Failure Program
  | [] => .error failure
  | directory :: directories =>
    let directory : Path := if directory.isEmpty then ⟨"."⟩ else ⟨directory⟩
    match programAt tree (directory.child name) with
    | .ok program => .ok program
    | .error .permissionDenied => searchProgram tree name .permissionDenied directories
    | .error _ => searchProgram tree name failure directories

/-- The program that a name stands for. -/
def findProgram (tree : FileTree) (searchPath name : String) : Except Failure Program :=
  if name.isEmpty then .error .notFound
  else if name.toList.contains '/' then programAt tree ⟨name⟩
  else
    searchProgram tree name .notFound
      ((Text.split ':' searchPath.toList).map String.ofList)

/-! ### Time -/

/-- A span of time with an optional unit, in nanoseconds. -/
def span? (text : String) : Option Nat :=
  let cs := text.toList
  let whole := cs.takeWhile Char.isDigit
  let (fraction, unit) := match cs.drop whole.length with
    | '.' :: rest => (rest.takeWhile Char.isDigit, rest.dropWhile Char.isDigit)
    | rest => ([], rest)
  let scale? : Option Nat := match unit with
    | [] | ['s'] => some 1
    | ['m'] => some 60
    | ['h'] => some 3600
    | ['d'] => some 86400
    | _ => none
  if whole.isEmpty && fraction.isEmpty then none
  else do
    let scale ← scale?
    let digits (cs : List Char) : Nat := ((String.ofList cs).toNat?).getD 0
    return scale * (digits whole * 1000000000 + digits ((fraction ++ List.replicate 9 '0').take 9))

/-! ### Signals -/

/-- The number of a signal that is written as a number or a name. -/
def signal? (text : String) : Option Nat :=
  let name := if text.startsWith "SIG" then String.ofList (text.toList.drop 3) else text
  match name with
  | "EXIT" => some 0
  | "HUP" => some 1
  | "INT" => some 2
  | "QUIT" => some 3
  | "ILL" => some 4
  | "TRAP" => some 5
  | "ABRT" => some 6
  | "BUS" => some 7
  | "FPE" => some 8
  | "KILL" => some 9
  | "USR1" => some 10
  | "SEGV" => some 11
  | "USR2" => some 12
  | "PIPE" => some 13
  | "ALRM" => some 14
  | "TERM" => some 15
  | name => if !name.isEmpty && name.all Char.isDigit then name.toNat? else none

/-- The signals that do not end a process. -/
def harmlessSignals : List Nat := [0, 17, 18, 23, 28]

end SuiteRunner.Shell
