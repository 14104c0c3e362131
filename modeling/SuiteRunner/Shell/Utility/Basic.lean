import SuiteRunner.Files.Tree
import SuiteRunner.Text.Utf8

/-!
# Calls of utilities

A utility is called with arguments, an input and the file tree, and answers with what it
prints, its exit status and the tree that it leaves. Here is what all of them share: how
options and operands are told apart, and how the contents of operands are reached.
-/

namespace SuiteRunner.Shell

open Files

structure Call where
  arguments : List String
  input : ByteArray
  env : List (String × String)
  tree : FileTree

structure Answer where
  tree : FileTree
  output : ByteArray := .empty
  errors : String := ""
  status : Nat := 0

namespace Call

/-- An answer that changes nothing. -/
def answer (call : Call) (output : ByteArray) (status : Nat) : Answer :=
  { tree := call.tree, output, status }

def print (call : Call) (text : String) (status : Nat) : Answer :=
  call.answer (Text.toBytes text) status

def complain (call : Call) (errors : String) (status : Nat) : Answer :=
  { tree := call.tree, errors := errors ++ "\n", status }

end Call

/-- What a failure is called behind the name of what failed. -/
def reason : Failure → String
  | .notFound => "No such file or directory"
  | .permissionDenied => "Permission denied"
  | .alreadyExists => "File exists"
  | .notADirectory => "Not a directory"
  | .isADirectory => "Is a directory"
  | .directoryNotEmpty => "Directory not empty"
  | .nameTooLong => "File name too long"
  | .tooManyLinks => "Too many levels of symbolic links"
  | .argumentTooLong => "Argument list too long"
  | .notUtf8 | .nulInName | .nulInArgument => "Invalid argument"
  | .notAProgram => "Exec format error"

def quotedName (name : String) : String := "'" ++ name ++ "'"

/-! ### Arguments -/

/-- Whether an argument holds options. -/
def isOption (argument : String) : Bool := argument.startsWith "-" && argument.length > 1

/-- The letters of the options in front, and the operands. -/
def options (arguments : List String) : List Char × List String :=
  match arguments with
  | "--" :: operands => ([], operands)
  | argument :: rest =>
    if isOption argument then
      let (letters, operands) := options rest
      (argument.toList.drop 1 ++ letters, operands)
    else ([], arguments)
  | [] => ([], [])

/-- The value of an option with one letter, and the other arguments. -/
def valueOf (letter : Char) (arguments : List String) : Option String × List String :=
  match arguments with
  | argument :: rest =>
    match argument.toList with
    | ['-', c] =>
      if c = letter then (rest.head?, rest.drop 1)
      else
        let (value, rest) := valueOf letter rest
        (value, argument :: rest)
    | '-' :: c :: value =>
      if c = letter then (some (String.ofList value), rest)
      else
        let (value, rest) := valueOf letter rest
        (value, argument :: rest)
    | _ => (none, arguments)
  | [] => (none, [])

/-- The device that has as many zero bytes as anybody wants. -/
def zeroDevice : String := "/dev/zero"

/-- More bytes than anybody asks of an endless output. -/
def plenty : Nat := 8 * 1024 * 1024

/-- The content of a file or of a device. -/
def contentOf (tree : FileTree) (name : String) : Except Failure ByteArray :=
  if name == zeroDevice then .ok ⟨Array.replicate plenty 0⟩ else tree.read ⟨name⟩

/-- The contents of the operands, or the input if there are none, with a message and the
operand's own name for each. -/
def contents (call : Call) (operands : List String) :
    List (String × Except Failure ByteArray) :=
  if operands.isEmpty then [("-", .ok call.input)]
  else
    operands.map fun name =>
      (name, if name == "-" then .ok call.input else contentOf call.tree name)

/-- Answer with something made of each operand's content, and complain of those that cannot
be read. -/
def eachContent (program : String) (call : Call) (operands : List String)
    (f : String → ByteArray → ByteArray) : Answer :=
  (contents call operands).foldl (fun answer (name, content) =>
    match content with
    | .ok content => { answer with output := answer.output ++ f name content }
    | .error cause =>
      { answer with
        errors := answer.errors ++ program ++ ": " ++ name ++ ": " ++ reason cause ++ "\n"
        status := 1 }) { tree := call.tree }

/-- The lines of a content, without their ends. -/
def linesOf (content : ByteArray) : List String :=
  let pieces := Text.split '\n' (Text.ofBytes content).toList
  (Text.dropLastEmpty pieces).map String.ofList

def unlines (lines : List String) : ByteArray :=
  Text.toBytes (String.join (lines.map (· ++ "\n")))

/-- A whole number, perhaps with a sign. -/
def integer? (text : String) : Option Int :=
  let digits (cs : List Char) : Option Nat :=
    if cs.isEmpty || !cs.all Char.isDigit then none else (String.ofList cs).toNat?
  match text.toList with
  | '-' :: cs => (digits cs).map fun n => -(n : Int)
  | '+' :: cs => (digits cs).map fun n => (n : Int)
  | cs => (digits cs).map fun n => (n : Int)

end SuiteRunner.Shell
