import SuiteRunner.Shell.Utility.Basic

/-!
# Utilities that work on the file tree
-/

namespace SuiteRunner.Shell

open Files

/-- Do something with each operand, and complain of what goes wrong. -/
def eachOperand (call : Call) (operands : List String) (what : String → Failure → String)
    (f : FileTree → String → Except Failure FileTree) : Answer :=
  operands.foldl (fun answer name =>
    match f answer.tree name with
    | .ok tree => { answer with tree }
    | .error cause =>
      { answer with errors := answer.errors ++ what name cause ++ "\n", status := 1 })
    { tree := call.tree }

def touch (call : Call) : Answer :=
  eachOperand call (options call.arguments).2
    (fun name cause => "touch: cannot touch " ++ quotedName name ++ ": " ++ reason cause)
    fun tree name =>
      match tree.find ⟨name⟩ with
      | .ok _ => .ok tree
      | .error _ => tree.write ⟨name⟩ .empty

def rm (call : Call) : Answer :=
  let (letters, operands) := options call.arguments
  let recursive := letters.contains 'r' || letters.contains 'R'
  eachOperand call operands
    (fun name cause => "rm: cannot remove " ++ quotedName name ++ ": " ++ reason cause)
    fun tree name =>
      match tree.locate ⟨name⟩ ⟨false, false⟩ with
      | .error .notFound => if letters.contains 'f' then .ok tree else .error .notFound
      | .error cause => .error cause
      | .ok place =>
        match tree.entry? place with
        | some .directory => if recursive then .ok (tree.removeAt place) else .error .isADirectory
        | _ => .ok (tree.removeAt place)

def mkdir (call : Call) : Answer :=
  let (letters, operands) := options call.arguments
  eachOperand call operands
    (fun name cause => "mkdir: cannot create directory " ++ Text.pack "‘" ++ name ++
      Text.pack "’" ++ ": " ++ reason cause)
    fun tree name =>
      if letters.contains 'p' then tree.makeDirectories ⟨name⟩ else tree.makeDirectory ⟨name⟩

def rmdir (call : Call) : Answer :=
  eachOperand call (options call.arguments).2
    (fun name cause => "rmdir: failed to remove " ++ quotedName name ++ ": " ++ reason cause)
    fun tree name =>
      match tree.names ⟨name⟩ with
      | .error cause => .error cause
      | .ok [] => tree.remove ⟨name⟩
      | .ok _ => .error .directoryNotEmpty

/-- Where something goes that is put under or at `target`. -/
def destination (tree : FileTree) (source target : String) : Path :=
  if tree.isDirectory ⟨target⟩ then
    (Path.mk target).child (((Path.mk source).fileName?).getD source)
  else ⟨target⟩

def copyFile (tree : FileTree) (source target : String) : Except Failure FileTree := do
  let content ← tree.read ⟨source⟩
  let path := destination tree source target
  let made ← tree.write path content
  made.setExecutable path (tree.isExecutable ⟨source⟩)

def cp (call : Call) : Answer :=
  let operands := (options call.arguments).2
  let target := operands.getLast?.getD ""
  eachOperand call operands.dropLast
    (fun name cause => "cp: cannot stat " ++ quotedName name ++ ": " ++ reason cause)
    fun tree name => copyFile tree name target

def mv (call : Call) : Answer :=
  let operands := (options call.arguments).2
  let target := operands.getLast?.getD ""
  eachOperand call operands.dropLast
    (fun name cause => "mv: cannot stat " ++ quotedName name ++ ": " ++ reason cause)
    fun tree name => do
      let source ← tree.locate ⟨name⟩ ⟨false, false⟩
      let place ← tree.locate (destination tree name target) ⟨false, true⟩
      let cleared := tree.removeAt place
      let entries := cleared.entries.map fun (other, entry) =>
        if FileTree.isBelow source other then (place ++ other.drop source.length, entry)
        else (other, entry)
      return { cleared with entries }

def ln (call : Call) : Answer :=
  let (letters, operands) := options call.arguments
  match operands with
  | [source, target] =>
    eachOperand call [target]
      (fun name cause => "ln: failed to create link " ++ quotedName name ++ ": " ++ reason cause)
      fun tree target =>
        let path := destination tree source target
        let tree := if letters.contains 'f' then (tree.remove path).toOption.getD tree else tree
        if letters.contains 's' then tree.makeLink path source else copyFile tree source target
  | _ => call.complain "ln: missing file operand" 1

def chmod (call : Call) : Answer :=
  match call.arguments with
  | mode :: operands =>
    let executable := mode.endsWith "+x" || mode.startsWith "7" || mode.startsWith "07"
    eachOperand call operands
      (fun name cause => "chmod: cannot access " ++ quotedName name ++ ": " ++ reason cause)
      fun tree name => tree.setExecutable ⟨name⟩ executable
  | [] => call.complain "chmod: missing operand" 1

def ls (call : Call) : Answer :=
  let (letters, operands) := options call.arguments
  let operands := if operands.isEmpty then ["."] else operands
  let showsAll := letters.contains 'a' || letters.contains 'A'
  let shown (name : String) : Bool := showsAll || !name.startsWith "."
  operands.foldl (fun answer name =>
    match call.tree.names ⟨name⟩ with
    | .ok names =>
      let names := (names.filter shown).mergeSort (· ≤ ·)
      { answer with output := answer.output ++ unlines names }
    | .error .notADirectory =>
      { answer with output := answer.output ++ Text.toBytes (name ++ "\n") }
    | .error cause =>
      let errors := "ls: cannot access " ++ quotedName name ++ ": " ++ reason cause ++ "\n"
      { answer with errors := answer.errors ++ errors, status := 2 }) { tree := call.tree }

def tee (call : Call) : Answer :=
  let (letters, operands) := options call.arguments
  let answer := eachOperand call operands
    (fun name cause => "tee: " ++ name ++ ": " ++ reason cause)
    fun tree name =>
      let before := if letters.contains 'a' then (tree.read ⟨name⟩).toOption.getD .empty else .empty
      tree.write ⟨name⟩ (before ++ call.input)
  { answer with output := call.input }

def cmp (call : Call) : Answer :=
  match (options call.arguments).2 with
  | [a, b] =>
    match contents call [a, b] with
    | [(_, .ok first), (_, .ok second)] =>
      if first.data == second.data then call.answer .empty 0
      else
        let letters := (options call.arguments).1
        let pairs := first.data.toList.zip second.data.toList
        let same := (pairs.takeWhile fun (x, y) => x == y).length
        let line := 1 + (first.data.toList.take same).count 10
        if letters.contains 's' then call.answer .empty 1
        else call.print (a ++ " " ++ b ++ " differ: byte " ++ toString (same + 1) ++ ", line " ++
          toString line ++ "\n") 1
    | _ => call.complain ("cmp: " ++ a ++ ": No such file or directory") 2
  | _ => call.complain "cmp: missing operand" 2

def printenv (call : Call) : Answer :=
  match call.arguments with
  | [] => call.answer (unlines (call.env.map fun (name, value) => name ++ "=" ++ value)) 0
  | names =>
    let found := names.filterMap fun name => call.env.lookup name
    call.answer (unlines found) (if found.length == names.length then 0 else 1)

end SuiteRunner.Shell
