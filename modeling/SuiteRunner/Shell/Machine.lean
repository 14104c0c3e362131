import SuiteRunner.Files.Tree
import SuiteRunner.Shell.Syntax

/-!
# The machine that scripts run on

The machine has a file tree, a clock that only waiting moves, and streams. All texts that a
shell works with are packed: a shell takes bytes as they are. What is written to a stream
is kept together with the time at which it was written. A process that runs in
the background may still hold a stream when nobody else does; the stream ends when the last
of its holders has finished. At the time `stopAt` everything that still runs is stopped.
-/

namespace SuiteRunner.Shell

open Files

/-- What was written to a stream at one time, in nanoseconds. -/
structure Chunk where
  time : Nat
  bytes : ByteArray

/-- Where a descriptor leads. -/
inductive Target where
  | stream (index : Nat)
  | source (index : Nat)
  | file (place : Place)
  | sink
  deriving DecidableEq, Repr

/-- What is still to be read of an input, and the time at which it can be read. -/
structure Source where
  bytes : ByteArray
  ready : Nat

/-- A background process: the streams it holds, and when it finishes, if it does. -/
structure Holder where
  id : Nat
  streams : List Nat
  finish : Option Nat

structure Machine where
  tree : FileTree
  clock : Nat
  stopAt : Option Nat
  /-- The chunks of every stream, the latest first. -/
  streams : Array (List Chunk) := #[]
  sources : Array Source := #[]
  holders : List Holder := []
  lastProcess : Nat := 1

namespace Machine

def newStream (machine : Machine) : Nat × Machine :=
  (machine.streams.size, { machine with streams := machine.streams.push [] })

def newSource (machine : Machine) (source : Source) : Nat × Machine :=
  (machine.sources.size, { machine with sources := machine.sources.push source })

def newProcess (machine : Machine) : Nat × Machine :=
  (machine.lastProcess + 1, { machine with lastProcess := machine.lastProcess + 1 })

/-- Write bytes to where a descriptor leads. -/
def write (machine : Machine) (target : Option Target) (bytes : ByteArray) : Machine :=
  match target with
  | some (.stream index) =>
    let chunk : Chunk := ⟨machine.clock, bytes⟩
    { machine with streams := machine.streams.modify index (chunk :: ·) }
  | some (.file place) =>
    match machine.tree.entry? place with
    | some (.file content executable) =>
      { machine with tree := machine.tree.put place (.file (content ++ bytes) executable) }
    | _ => machine
  | _ => machine

/-- Let time pass until `time`; nothing if everything is stopped before. -/
def waitUntil (machine : Machine) (time : Nat) : Option Machine :=
  if machine.stopAt.any (· ≤ time) then none
  else some { machine with clock := max machine.clock time }

/-- The clock at the time when everything is stopped. -/
def stopped (machine : Machine) : Machine :=
  { machine with clock := machine.stopAt.getD machine.clock }

/-- Read an input to its end. -/
def drain (machine : Machine) (target : Option Target) : Option (ByteArray × Machine) :=
  match target with
  | some (.source index) =>
    match machine.sources[index]? with
    | some source => do
      let machine ← machine.waitUntil source.ready
      return (source.bytes, { machine with sources := machine.sources.set! index ⟨.empty, 0⟩ })
    | none => some (.empty, machine)
  | _ => some (.empty, machine)

/-- Read one line of an input, without its end; the last part says whether the end was there. -/
def readLine (machine : Machine) (target : Option Target) :
    Option (ByteArray × Bool × Machine) :=
  match target with
  | some (.source index) =>
    match machine.sources[index]? with
    | some source => do
      let machine ← machine.waitUntil source.ready
      let length := (source.bytes.data.findIdx? (· == 10)).getD source.bytes.size
      let complete := length < source.bytes.size
      let rest := source.bytes.extract (length + 1) source.bytes.size
      return (source.bytes.extract 0 length, complete,
        { machine with sources := machine.sources.set! index { source with bytes := rest } })
    | none => some (.empty, false, machine)
  | _ => some (.empty, false, machine)

/-- What was written to a stream up to a time, in the order of the times. -/
def contentUntil (machine : Machine) (stream : Nat) (time : Option Nat) : List ByteArray :=
  let chunks := ((machine.streams[stream]?).getD []).reverse
  let chunks := chunks.filter fun chunk => time.all (chunk.time ≤ ·)
  (chunks.mergeSort fun a b => a.time ≤ b.time).map (·.bytes)

/-- Everything that was written to a stream. -/
def content (machine : Machine) (stream : Nat) : ByteArray :=
  (machine.contentUntil stream none).foldl (· ++ ·) .empty

/-- Wait for the processes that hold one of the streams. -/
def waitForHolders (machine : Machine) (streams : List Nat) : Option Machine :=
  machine.holders.foldl (fun machine? holder => do
    let machine ← machine?
    if holder.streams.any streams.contains then machine.waitUntil (← holder.finish)
    else machine) (some machine)

end Machine

/-- A process that a shell has started in the background. -/
structure Job where
  id : Nat
  status : Nat

/-- Where a script goes on. -/
inductive Flow where
  | next
  | leave
  | returned
  | breaking (levels : Nat)
  | continuing (levels : Nat)
  | signaled (process signal : Nat)
  | stopped
  deriving DecidableEq, Repr

/-- A running shell. -/
structure Process where
  name : String
  id : Nat
  directory : Place
  vars : List (String × String) := []
  exported : List String := []
  arguments : List String := []
  status : Nat := 0
  stopsOnFailure : Bool := false
  /-- Whether a variable that is not set may not be used. -/
  refusesUnset : Bool := false
  /-- Whether commands are shown before they are run. -/
  traces : Bool := false
  functions : List (String × Command) := []
  descriptors : List (Nat × Target) := []
  jobs : List Job := []
  /-- What is done when a signal comes; an empty action ignores it. -/
  traps : List (Nat × String) := []
  /-- The actions for signals that have come. -/
  trapped : List String := []
  exitTrap : Option String := none
  /-- The exit status of the last script whose output was captured for a command. -/
  captured : Nat := 0
  /-- How the command ends whose words could not be expanded. -/
  pending : Option Flow := none

namespace Process

def target (process : Process) (descriptor : Nat) : Option Target :=
  process.descriptors.lookup descriptor

def setTarget (process : Process) (descriptor : Nat) (target : Option Target) : Process :=
  let others := process.descriptors.filter fun (number, _) => number != descriptor
  match target with
  | some target => { process with descriptors := (descriptor, target) :: others }
  | none => { process with descriptors := others }

def get? (process : Process) (name : String) : Option String := process.vars.lookup name

def set (process : Process) (name value : String) : Process :=
  let others := process.vars.filter fun (other, _) => other != name
  { process with vars := (name, value) :: others }

def unset (process : Process) (name : String) : Process :=
  { process with
    vars := process.vars.filter fun (other, _) => other != name
    exported := process.exported.filter (· != name) }

def exportName (process : Process) (name : String) : Process :=
  { process with exported := name :: process.exported.filter (· != name) }

/-- Give some variables back what they were before. -/
def restore (process : Process) (names : List String) (before : Process) : Process :=
  let isNamed (pair : String × String) : Bool := names.contains pair.1
  { process with
    vars := before.vars.filter isNamed ++ process.vars.filter (!isNamed ·)
    exported := before.exported.filter names.contains ++
      process.exported.filter (!names.contains ·) }

/-- What the programs that a shell starts find in their environment. -/
def environment (process : Process) : List (String × String) :=
  (process.vars.filter fun (name, _) => process.exported.contains name).mergeSort
    fun (a, _) (b, _) => a ≤ b

/-- The file tree as the process sees it. -/
def treeOf (process : Process) (machine : Machine) : FileTree :=
  { machine.tree with workingDirectory := process.directory }

/-- The streams that a process holds. -/
def streams (process : Process) : List Nat :=
  process.descriptors.filterMap fun (_, target) =>
    match target with
    | .stream index => some index
    | _ => none

def withStatus (process : Process) (status : Nat) : Process := { process with status }

/-- A copy of the shell, which has no jobs of its own and keeps only what it ignores. -/
def copy (process : Process) : Process :=
  { process with
    jobs := [], exitTrap := none, trapped := []
    traps := process.traps.filter fun (_, action) => action.isEmpty }

/-- Print a message of the shell itself. -/
def complain (process : Process) (machine : Machine) (message : String) : Machine :=
  machine.write (process.target 2)
    (Text.toBytes (process.name ++ ": 1: " ++ message ++ "\n"))

/-- What a word of the shell's own stands for. -/
def special? (process : Process) (name : String) : Option String :=
  match name with
  | "?" => some (toString process.status)
  | "$" => some (toString process.id)
  | "#" => some (toString process.arguments.length)
  | "!" => process.jobs.head?.map fun job => toString job.id
  | "-" =>
    some ((if process.stopsOnFailure then "e" else "") ++ (if process.traces then "x" else "") ++
      (if process.refusesUnset then "u" else ""))
  | "0" => some process.name
  | "*" | "@" =>
    if process.arguments.isEmpty then none else some (" ".intercalate process.arguments)
  | name =>
    match name.toNat? with
    | some n => process.arguments[n - 1]?
    | none => process.get? name

end Process

end SuiteRunner.Shell
