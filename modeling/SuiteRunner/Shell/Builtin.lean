import SuiteRunner.Shell.Program

/-!
# Commands of the shell itself

The commands that change the shell that runs them: its directory, variables, arguments,
options, signals and jobs.
-/

namespace SuiteRunner.Shell

open Files

structure State where
  process : Process
  machine : Machine

namespace State

def withStatus (state : State) (status : Nat) : State :=
  { state with process := state.process.withStatus status }

/-- Go on with an exit status. -/
def finish (state : State) (status : Nat) : Flow × State := (.next, state.withStatus status)

/-- Everything is stopped. -/
def stop (state : State) : Flow × State :=
  (.stopped, { state with machine := state.machine.stopped })

def complain (state : State) (message : String) (status : Nat) : Flow × State :=
  { state with machine := state.process.complain state.machine message }.finish status

def mapProcess (state : State) (f : Process → Process) : State :=
  { state with process := f state.process }

/-- A message about a word that cannot be expanded, which ends the shell. -/
def abandon (state : State) (message : String) : State :=
  let (_, state) := state.complain message 2
  state.mapProcess ({ · with pending := some .leave })

/-- Go on, unless words could not be expanded. -/
def unlessPending (state : State) (f : State → Flow × State) : Flow × State :=
  match state.process.pending with
  | some flow => (flow, state.mapProcess ({ · with pending := none }))
  | none => f state

def tree (state : State) : FileTree := state.process.treeOf state.machine

end State

/-- Changes to the shell that nothing can go wrong with. -/
def change (state : State) (f : Process → Process) : Flow × State :=
  (state.mapProcess f).finish 0

/-- The name and the value of an argument such as `name=value`. -/
def cutAssignment (argument : String) : String × Option String :=
  let name := argument.toList.takeWhile (· != '=')
  match argument.toList.drop name.length with
  | [] => (argument, none)
  | _ :: value => (String.ofList name, some (String.ofList value))

/-- Set the variables of arguments such as `name=value`. -/
def assignAll (arguments : List String) (process : Process) : Process :=
  arguments.foldl (fun process argument =>
    match cutAssignment argument with
    | (name, some value) => process.set name value
    | (_, none) => process) process

def exportAll (arguments : List String) (process : Process) : Process :=
  arguments.foldl (fun process argument => process.exportName (cutAssignment argument).1)
    (assignAll arguments process)

def changeDirectory (arguments : List String) (state : State) : Flow × State :=
  let process := state.process
  let target := match arguments.filter (· != "--") with
    | "-" :: _ => (process.get? "OLDPWD").getD ""
    | target :: _ => target
    | [] => (process.get? "HOME").getD ""
  match state.tree.enter ⟨target⟩ with
  | .ok entered =>
    change state fun process =>
      (({ process with directory := entered.workingDirectory }).set "OLDPWD"
        process.directory.path.text).set "PWD" entered.workingDirectory.path.text
  | .error _ => state.complain ("cd: can't cd to " ++ target) 2

/-- Switch the options on or off that some letters stand for. -/
def setLetters (value : Bool) (letters : List Char) (process : Process) : Process :=
  letters.foldl (fun process letter =>
    match letter with
    | 'e' => { process with stopsOnFailure := value }
    | 'u' => { process with refusesUnset := value }
    | 'x' => { process with traces := value }
    | _ => process) process

/-- The arguments and options that `set` gives to the shell. -/
def setOptions (process : Process) : List String → Process
  | [] => process
  | "--" :: arguments => { process with arguments }
  | argument :: rest =>
    match argument.toList with
    | '-' :: letters => setOptions (setLetters true letters process) rest
    | '+' :: letters => setOptions (setLetters false letters process) rest
    | _ => { process with arguments := argument :: rest }

/-- Cut a line into the values of some variables, the last of which takes the rest. -/
def lineValues (names : List String) (line : List Char) : List (String × String) :=
  let isBlank (c : Char) : Bool := c == ' ' || c == '\t'
  let line := line.dropWhile isBlank
  match names with
  | [] => []
  | [name] => [(name, String.ofList (line.reverse.dropWhile isBlank).reverse)]
  | name :: names =>
    let value := line.takeWhile (!isBlank ·)
    (name, String.ofList value) :: lineValues names (line.drop value.length)

/-- Take backslashes out of a line. -/
def withoutBackslashes : List Char → List Char
  | '\\' :: c :: rest => c :: withoutBackslashes rest
  | c :: rest => c :: withoutBackslashes rest
  | [] => []

def readVariables (arguments : List String) (state : State) : Flow × State :=
  let (letters, names) := options arguments
  match state.machine.readLine (state.process.target 0) with
  | none => state.stop
  | some (line, complete, machine) =>
    let line := (Text.ofBytes line).toList
    let line := if letters.contains 'r' then line else withoutBackslashes line
    let process := (lineValues names line).foldl
      (fun process (name, value) => process.set name value) state.process
    ({ process, machine } : State).finish (if complete then 0 else 1)

/-- Wait for background processes: all of them, or those that are named. -/
def waitFor (arguments : List String) (state : State) : Flow × State :=
  let ids := if arguments.isEmpty then state.process.jobs.map (·.id)
    else arguments.filterMap String.toNat?
  let waited := state.machine.holders.foldl (fun machine? holder => do
    let machine : Machine ← machine?
    if ids.contains holder.id then machine.waitUntil (← holder.finish) else machine)
    (some state.machine)
  match waited with
  | none => state.stop
  | some machine =>
    let status := match arguments, state.process.jobs.find? fun job => ids.contains job.id with
      | [], _ => 0
      | _, some job => job.status
      | _, none => 127
    ({ state with machine } : State).finish status

/-- Send a signal to the shell itself or to one of its jobs. -/
def sendSignal (signal target : Nat) (state : State) : Flow × State :=
  if target = state.process.id then
    let action? := if signal = 9 then none else state.process.traps.lookup signal
    match action? with
    | some action =>
      let trapped := if action.isEmpty then [] else [action]
      change state fun process => { process with trapped := process.trapped ++ trapped }
    | none =>
      if harmlessSignals.contains signal then state.finish 0 else (.signaled target signal, state)
  else if state.process.jobs.any (·.id == target) then
    let now := state.machine.clock
    let isLater (holder : Holder) : Bool := holder.finish.all (now < ·)
    let ends (holder : Holder) : Holder :=
      if holder.id == target then { holder with finish := some now } else holder
    let late := state.machine.holders.any fun holder => holder.id == target && isLater holder
    let machine := { state.machine with
      holders := if late then state.machine.holders.map ends else state.machine.holders }
    let jobs := state.process.jobs.map fun job =>
      if late && job.id == target then { job with status := 128 + signal } else job
    ({ process := { state.process with jobs }, machine } : State).finish 0
  else state.complain "kill: No such process" 1

def kill (arguments : List String) (state : State) : Flow × State :=
  let (signal?, targets) : Option Nat × List String := match arguments with
    | "-s" :: name :: targets => (signal? name, targets)
    | argument :: targets =>
      if isOption argument then (signal? (String.ofList (argument.toList.drop 1)), targets)
      else (some 15, arguments)
    | [] => (some 15, [])
  match signal?, targets.mapM String.toNat? with
  | some signal, some [target] => sendSignal signal target state
  | _, _ => state.complain "kill: Illegal number" 2

/-- What is done when a signal comes or the shell ends. -/
def trap (arguments : List String) (state : State) : Flow × State :=
  match arguments with
  | action :: names =>
    let signals := names.filterMap signal?
    let removed := action == "-"
    let others := state.process.traps.filter fun (signal, _) => !signals.contains signal
    let added := if removed then [] else signals.map fun signal => (signal, action)
    change state fun process =>
      { process with
        exitTrap :=
          if signals.contains 0 then (if removed then none else some action) else process.exitTrap
        traps := added ++ others }
  | [] => state.finish 0

/-- The levels of loops that are left. -/
def levels (arguments : List String) : Nat := ((arguments.head?.bind String.toNat?).getD 1)

/-- Leave a script or a function with the exit status that an argument gives. -/
def leaveWith (name : String) (flow : Flow) (arguments : List String) (state : State) :
    Flow × State :=
  match arguments.head? with
  | none => (flow, state)
  | some text =>
    match if text.all Char.isDigit then text.toNat? else none with
    | some status => (flow, state.withStatus (status % 256))
    | none => (.leave, (state.complain (name ++ ": Illegal number: " ++ text) 2).2)

/-- A command of the shell itself, if there is one of this name. -/
def builtin? (name : String) : Option (List String → State → Flow × State) :=
  match name with
  | ":" | "umask" | "ulimit" | "hash" => some fun _ state => state.finish 0
  | "cd" => some changeDirectory
  | "exit" => some (leaveWith "exit" .leave)
  | "return" => some (leaveWith "return" .returned)
  | "break" => some fun arguments state => (.breaking (levels arguments), state.withStatus 0)
  | "continue" => some fun arguments state => (.continuing (levels arguments), state.withStatus 0)
  | "export" => some fun arguments state => change state (exportAll arguments)
  | "readonly" | "local" => some fun arguments state => change state (assignAll arguments)
  | "unset" => some fun arguments state =>
    change state fun process => arguments.foldl Process.unset process
  | "set" => some fun arguments state => change state (setOptions · arguments)
  | "shift" => some fun arguments state =>
    change state fun process =>
      { process with arguments := process.arguments.drop (levels arguments) }
  | "read" => some readVariables
  | "wait" => some waitFor
  | "kill" => some kill
  | "trap" => some trap
  | _ => none

end SuiteRunner.Shell
