import SuiteRunner.Shell.Builtin

/-!
# Redirections

A redirection lets a descriptor of the shell lead to a file, to a content, or to where
another descriptor leads.
-/

namespace SuiteRunner.Shell

open Files

/-- The descriptor that a device path stands for. -/
def deviceDescriptor? : String → Option Nat
  | "/dev/stdin" => some 0
  | "/dev/stdout" => some 1
  | "/dev/stderr" => some 2
  | _ => none

def openFailure (reading : Bool) (path : String) (cause : Failure) : String :=
  let what := match cause with
    | .notFound => if reading then "No such file" else "Directory nonexistent"
    | cause => reason cause
  (if reading then "cannot open " else "cannot create ") ++ path ++ ": " ++ what

/-- Open a file for a descriptor. -/
def openFile (kind : RedirectKind) (descriptor : Nat) (path : String) (state : State) :
    Except String State := do
  let tree := state.tree
  let back (tree : FileTree) : Machine :=
    let workingDirectory := state.machine.tree.workingDirectory
    { state.machine with tree := { tree with workingDirectory } }
  match kind with
  | .input =>
    let content ← (contentOf tree path).mapError (openFailure true path)
    let (index, machine) := state.machine.newSource ⟨content, 0⟩
    return ⟨state.process.setTarget descriptor (some (.source index)), machine⟩
  | _ =>
    let kept := if kind == .append then (tree.read ⟨path⟩).toOption.getD .empty else .empty
    let tree ← (tree.write ⟨path⟩ kept).mapError (openFailure false path)
    let place ← (tree.locate ⟨path⟩ {}).mapError (openFailure false path)
    let target : Target := match tree.entry? place with
      | some .sink => .sink
      | _ => .file place
    return ⟨state.process.setTarget descriptor (some target), back tree⟩

/-- Let a descriptor lead where another one leads, or nowhere. -/
def duplicate (descriptor : Nat) (text : String) (state : State) : Except String State :=
  if text == "-" then .ok (state.mapProcess (·.setTarget descriptor none))
  else
    match text.toNat?.bind state.process.target with
    | some target => .ok (state.mapProcess (·.setTarget descriptor (some target)))
    | none => .error (text ++ ": Bad file descriptor")

def redirect (kind : RedirectKind) (descriptor : Nat) (text : String) (state : State) :
    Except String State :=
  match kind, deviceDescriptor? text with
  | .content, _ =>
    let (index, machine) := state.machine.newSource ⟨Text.toBytes text, 0⟩
    .ok ⟨state.process.setTarget descriptor (some (.source index)), machine⟩
  | .duplicate, _ => duplicate descriptor text state
  | _, some device => duplicate descriptor (toString device) state
  | kind, none => openFile kind descriptor text state

end SuiteRunner.Shell
