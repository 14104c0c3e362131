import SuiteRunner.Shell.Arithmetic
import SuiteRunner.Shell.Field
import SuiteRunner.Shell.Invocation
import SuiteRunner.Shell.Parser
import SuiteRunner.Shell.Redirection

/-!
# Running scripts

Scripts run on a machine whose clock moves only when something waits. What runs in the
background is run at once, and the clock is turned back to when it started. Nothing runs
for more than a bounded number of steps: what does would not end by itself, and so it runs
until everything is stopped.
-/

namespace SuiteRunner.Shell

/-- How many steps a script may take from one command to the innermost one. -/
def patience : Nat := 12000

mutual

/-- Run a command; `guarded` says that somebody checks its status. -/
def run (fuel : Nat) (guarded : Bool) (command : Command) (state : State) : Flow × State :=
  match fuel with
  | 0 => state.stop
  | fuel + 1 =>
    match command with
    | .nothing => (.next, state)
    | .simple assignments words =>
      runTrapped fuel (checked guarded (runSimple fuel guarded assignments words state))
    | .redirected command redirects =>
      checked guarded (runRedirected fuel guarded command redirects state)
    | .sequence first second =>
      match run fuel guarded first state with
      | (.next, state) => run fuel guarded second state
      | result => result
    | .both first second =>
      match run fuel true first state with
      | (.next, state) =>
        if state.process.status = 0 then run fuel guarded second state else (.next, state)
      | result => result
    | .either first second =>
      match run fuel true first state with
      | (.next, state) =>
        if state.process.status = 0 then (.next, state) else run fuel guarded second state
      | result => result
    | .negated command =>
      match run fuel true command state with
      | (.next, state) => state.finish (if state.process.status = 0 then 1 else 0)
      | result => result
    | .pipe source target => checked guarded (runPipe fuel guarded source target state)
    | .subshell command => checked guarded (runSubshell fuel guarded command state)
    | .background command => runBackground fuel command state
    | .conditional condition yes no =>
      match run fuel true condition state with
      | (.next, state) =>
        if state.process.status = 0 then run fuel guarded yes state
        else run fuel guarded no (state.withStatus 0)
      | result => result
    | .loop wanted condition body => runLoop fuel guarded wanted condition body 0 state
    | .forEach name words body =>
      let (values, state) := match words with
        | some words => expandAll fuel words state
        | none => (state.process.arguments, state)
      state.unlessPending fun state =>
        if values.isEmpty then state.finish 0 else runForEach fuel guarded name body values state
    | .choose word patterns body rest =>
      let (pieces, state) := expand fuel false word state
      let (accepted, state) := acceptsAny fuel patterns (textOf pieces).toList state
      state.unlessPending fun state =>
        run fuel guarded (if accepted then body else rest) (state.withStatus 0)
    | .function name body =>
      change state fun process =>
        { process with functions := (name, body) :: process.functions }
    | .malformed => (.leave, (state.complain "Syntax error" 2).2)

/-- Do what is to be done for the signals that have come. -/
def runTrapped (fuel : Nat) (result : Flow × State) : Flow × State :=
  match fuel, result with
  | fuel + 1, (.next, state) =>
    match state.process.trapped with
    | [] => (.next, state)
    | action :: others =>
      let status := state.process.status
      match runScript fuel false action (state.mapProcess ({ · with trapped := others })) with
      | (.next, state) => runTrapped fuel (.next, state.withStatus status)
      | result => result
  | _, result => result

/-- Whether one of the patterns of a choice matches a text. -/
def acceptsAny (fuel : Nat) (patterns : List Word) (text : List Char) (state : State) :
    Bool × State :=
  match fuel, patterns with
  | 0, _ | _, [] => (false, state)
  | fuel + 1, pattern :: patterns =>
    let (pieces, state) := expand fuel false pattern state
    if matchesGlob (marked pieces) text then (true, state)
    else acceptsAny fuel patterns text state

/-- Run the body of a loop for as long as the condition has the wanted outcome; `last` is the
status of the body so far. -/
def runLoop (fuel : Nat) (guarded wanted : Bool) (condition body : Command) (last : Nat)
    (state : State) : Flow × State :=
  match fuel with
  | 0 => state.stop
  | fuel + 1 =>
    match run fuel true condition state with
    | (.next, state) =>
      if (state.process.status = 0) = wanted then
        match run fuel guarded body state with
        | (.next, state) | (.continuing 0, state) | (.continuing 1, state) =>
          runLoop fuel guarded wanted condition body state.process.status state
        | (.breaking 0, state) | (.breaking 1, state) => (.next, state)
        | (.breaking levels, state) => (.breaking (levels - 1), state)
        | (.continuing levels, state) => (.continuing (levels - 1), state)
        | result => result
      else state.finish last
    | result => result

def runForEach (fuel : Nat) (guarded : Bool) (name : String) (body : Command)
    (values : List String) (state : State) : Flow × State :=
  match fuel, values with
  | 0, _ => state.stop
  | _, [] => (.next, state)
  | fuel + 1, value :: values =>
    match run fuel guarded body (state.mapProcess (·.set name value)) with
    | (.next, state) | (.continuing 0, state) | (.continuing 1, state) =>
      runForEach fuel guarded name body values state
    | (.breaking 0, state) | (.breaking 1, state) => (.next, state)
    | (.breaking levels, state) => (.breaking (levels - 1), state)
    | (.continuing levels, state) => (.continuing (levels - 1), state)
    | result => result

/-- Run a command in a copy of the shell. -/
def runSubshell (fuel : Nat) (guarded : Bool) (command : Command) (state : State) : Flow × State :=
  match fuel with
  | 0 => state.stop
  | fuel + 1 =>
    let (flow, after) := run fuel guarded command (state.mapProcess Process.copy)
    let outer : State := ⟨state.process.withStatus after.process.status, after.machine⟩
    match flow with
    | .stopped => (.stopped, outer)
    | .signaled process signal => (.signaled process signal, outer)
    | _ => (.next, outer)

def runBackground (fuel : Nat) (command : Command) (state : State) : Flow × State :=
  match fuel with
  | 0 => state.stop
  | fuel + 1 =>
    let start := state.machine.clock
    let (id, machine) := state.machine.newProcess
    let (flow, after) := runSubshell fuel false command
      ⟨state.process.setTarget 0 (some .sink), machine⟩
    let finish := if flow == .stopped then none else some after.machine.clock
    let machine := { after.machine with
      clock := start
      holders := ⟨id, state.process.streams, finish⟩ :: after.machine.holders }
    let process := { state.process with
      status := 0, jobs := ⟨id, after.process.status⟩ :: state.process.jobs }
    (.next, ⟨process, machine⟩)

/-- Run two commands, the output of one being the input of the other. -/
def runPipe (fuel : Nat) (guarded : Bool) (source target : Command) (state : State) :
    Flow × State :=
  match fuel with
  | 0 => state.stop
  | fuel + 1 =>
    let start := state.machine.clock
    let (stream, machine) := state.machine.newStream
    let (flow, after) := runSubshell fuel guarded source
      ⟨state.process.setTarget 1 (some (.stream stream)), machine⟩
    let finished := after.machine.clock
    let (input, machine) := after.machine.newSource ⟨after.machine.content stream, finished⟩
    match flow with
    | .stopped =>
      let sources := machine.sources.modify input ({ · with ready := start })
      let (_, last) := runSubshell fuel guarded target
        ⟨state.process.setTarget 0 (some (.source input)), { machine with sources, clock := start }⟩
      ({ state with machine := last.machine } : State).stop
    | .signaled process signal => (.signaled process signal, { state with machine })
    | _ =>
      let (flow, last) := runSubshell fuel guarded target
        ⟨state.process.setTarget 0 (some (.source input)), { machine with clock := start }⟩
      let machine := { last.machine with clock := max finished last.machine.clock }
      (flow, ⟨state.process.withStatus last.process.status, machine⟩)

def runRedirected (fuel : Nat) (guarded : Bool) (command : Command) (redirects : List Redirect)
    (state : State) : Flow × State :=
  match fuel with
  | 0 => state.stop
  | fuel + 1 =>
    match redirectAll fuel redirects state with
    | .error (message, state) => state.complain message 2
    | .ok inner =>
      let keeps := match command with
        | .simple _ [word] => word.bare? == some "exec"
        | _ => false
      inner.unlessPending fun inner =>
        let (flow, after) := run fuel guarded command inner
        if keeps then (flow, after)
        else (flow, after.mapProcess ({ · with descriptors := state.process.descriptors }))

def redirectAll (fuel : Nat) (redirects : List Redirect) (state : State) :
    Except (String × State) State :=
  match fuel, redirects with
  | 0, _ | _, [] => .ok state
  | fuel + 1, ⟨descriptor, kind, word⟩ :: redirects =>
    let (pieces, state) := expand fuel false word state
    match redirect kind descriptor (textOf pieces) state with
    | .ok state => redirectAll fuel redirects state
    | .error message => .error (message, state)

def assignVariables (fuel : Nat) (assignments : List (String × Word)) (state : State) : State :=
  match fuel, assignments with
  | 0, _ | _, [] => state
  | fuel + 1, (name, word) :: assignments =>
    let (pieces, state) := expand fuel false word state
    assignVariables fuel assignments (state.mapProcess (·.set name (textOf pieces)))

def runSimple (fuel : Nat) (guarded : Bool) (assignments : List (String × Word))
    (words : List Word) (state : State) : Flow × State :=
  match fuel with
  | 0 => state.stop
  | fuel + 1 =>
    let before := state.process
    let (values, state) := expandAll fuel words (state.mapProcess ({ · with captured := 0 }))
    let assigned := assignVariables fuel assignments state
    assigned.unlessPending fun assigned =>
      let names := assignments.map (·.1)
      let assigned := assigned.trace names values
      match values with
      | [] => assigned.finish assigned.process.captured
      | name :: arguments =>
        let (flow, after) := runWords fuel guarded name arguments
          (assigned.mapProcess (exportAll names))
        if names.isEmpty then (flow, after)
        else (flow, after.mapProcess (·.restore names before))

/-- Run a function, a command of the shell, or a program. -/
def runWords (fuel : Nat) (guarded : Bool) (name : String) (arguments : List String)
    (state : State) : Flow × State :=
  match fuel with
  | 0 => state.stop
  | fuel + 1 =>
    match state.process.functions.lookup name with
    | some body =>
      let outer := state.process.arguments
      let (flow, after) := run fuel guarded body (state.mapProcess ({ · with arguments }))
      let after := after.mapProcess ({ · with arguments := outer })
      (if flow == .returned then .next else flow, after)
    | none =>
      match name with
      | "eval" => runScript fuel guarded (" ".intercalate arguments) state
      | "." =>
        match state.tree.read ⟨arguments.headD ""⟩ with
        | .ok content =>
          let (flow, after) := runScript fuel guarded (Text.ofBytes content) state
          (if flow == .returned then .next else flow, after)
        | .error _ =>
          let message := ".: cannot open " ++ arguments.headD "" ++ ": No such file"
          let (_, state) := state.complain message 2
          (.leave, state)
      | "exec" =>
        match arguments with
        | [] => state.finish 0
        | name :: arguments =>
          match execute fuel name arguments state with
          | (.next, state) => (.leave, state)
          | result => result
      | "command" =>
        match arguments with
        | "-v" :: names => runWords fuel guarded "type" names state
        | name :: arguments =>
          runWords fuel guarded name arguments (state.mapProcess ({ · with functions := [] }))
        | [] => state.finish 0
      | "type" =>
        let searchPath := (state.process.get? "PATH").getD defaultSearchPath
        let known := arguments.all fun name =>
          (builtin? name).isSome || (findProgram state.tree searchPath name).isOk
        state.finish (if known then 0 else 127)
      | name =>
        match builtin? name with
        | some builtin => builtin arguments state
        | none =>
          match if ownUtilities.contains name then utility? name else none with
          | some answer => runUtility name answer arguments state
          | none => spawn fuel name arguments state

/-- Run a program in a process of its own. -/
def spawn (fuel : Nat) (name : String) (arguments : List String) (state : State) :
    Flow × State :=
  match fuel with
  | 0 => state.stop
  | fuel + 1 =>
    let (id, machine) := state.machine.newProcess
    let child := { state.process.copy with id }
    let (flow, after) := execute fuel name arguments ⟨child, machine⟩
    let outer (status : Nat) : State := ⟨state.process.withStatus status, after.machine⟩
    match flow with
    | .stopped => (.stopped, outer 0)
    | .signaled process signal =>
      if process = id then (.next, outer (128 + signal)) else (flow, outer 0)
    | _ => (.next, outer after.process.status)

/-- Run a program in the place of the process. -/
def execute (fuel : Nat) (name : String) (arguments : List String) (state : State) :
    Flow × State :=
  match fuel with
  | 0 => state.stop
  | fuel + 1 =>
    let searchPath := (state.process.get? "PATH").getD defaultSearchPath
    match findProgram state.tree searchPath name with
    | .error .permissionDenied => state.complain (name ++ ": Permission denied") 126
    | .error _ => state.complain (name ++ ": not found") 127
    | .ok .shell => runShell fuel name arguments state
    | .ok (.script path interpreter) =>
      match interpreter with
      | [] => runShell fuel name (path :: arguments) state
      | interpreter :: options => execute fuel interpreter (options ++ path :: arguments) state
    | .ok (.utility utility) =>
      match utility with
      | "sleep" => sleep arguments state
      | "echo" =>
        runUtility "echo" (fun call => call.answer (plainEcho call.arguments) 0) arguments state
      | "yes" => yes arguments state
      | "env" =>
        let (settings, words) := leadingAssignments arguments
        let state := state.mapProcess (exportAll settings)
        match words with
        | [] => runUtility "printenv" printenv [] state
        | "-i" :: rest =>
          let empty := state.mapProcess ({ · with exported := [] })
          execute fuel "env" rest empty
        | name :: arguments => execute fuel name arguments state
      | "timeout" =>
        match arguments with
        | limit :: name :: arguments =>
          let machine := state.machine
          let limit := machine.clock + (span? limit).getD 0
          let stopAt := some (machine.stopAt.elim limit (min limit))
          let (flow, after) := execute fuel name arguments
            { state with machine := { machine with stopAt } }
          let after := { after with machine := { after.machine with stopAt := machine.stopAt } }
          if flow == .stopped && machine.stopAt.all (limit < ·) then after.finish 124
          else (flow, after)
        | _ => state.finish 125
      | utility =>
        match utility? utility with
        | some answer => runUtility utility answer arguments state
        | none => state.finish 127

/-- Run a shell with arguments in the place of the process. -/
def runShell (fuel : Nat) (name : String) (arguments : List String) (state : State) :
    Flow × State :=
  match fuel with
  | 0 => state.stop
  | fuel + 1 =>
    let (letters, operands) := options arguments
    let start (name : String) (arguments : List String) : State :=
      state.mapProcess fun process => setLetters true letters (childProcess process name arguments)
    if letters.contains 'c' then
      match operands with
      | script :: rest => concludeShell fuel (start (rest.headD name) (rest.drop 1)) script
      | [] => state.complain "-c requires an argument" 2
    else
      match operands with
      | path :: rest =>
        match state.tree.read ⟨path⟩ with
        | .ok content => concludeShell fuel (start path rest) (Text.ofBytes content)
        | .error _ => state.complain ("cannot open " ++ path ++ ": No such file") 2
      | [] =>
        match state.machine.drain (state.process.target 0) with
        | some (input, machine) =>
          concludeShell fuel { start name [] with machine } (Text.ofBytes input)
        | none => state.stop

/-- Run the script of a shell to its end, and what is to be done when it ends. -/
def concludeShell (fuel : Nat) (state : State) (script : String) : Flow × State :=
  match fuel with
  | 0 => state.stop
  | fuel + 1 =>
    match runScript fuel false script state with
    | (.stopped, state) => (.stopped, state)
    | (.signaled process signal, state) => (.signaled process signal, state)
    | (_, state) =>
      match state.process.exitTrap with
      | none => (.next, state)
      | some action =>
        let status := state.process.status
        let last := state.mapProcess ({ · with exitTrap := none })
        let (flow, after) := runScript fuel false action last
        match flow with
        | .next => after.finish status
        | .leave => (.next, after)
        | flow => (flow, after)

/-- Read a script and run it. -/
def runScript (fuel : Nat) (guarded : Bool) (script : String) (state : State) : Flow × State :=
  match fuel with
  | 0 => state.stop
  | fuel + 1 =>
    match Command.parse script with
    | .nothing => state.finish 0
    | command => run fuel guarded command state

/-- What a script prints when it is run in a copy of the shell. -/
def captureOutput (fuel : Nat) (script : String) (state : State) : String × State :=
  match fuel with
  | 0 => ("", state)
  | fuel + 1 =>
    let (stream, machine) := state.machine.newStream
    let inner : State := ⟨(state.process.setTarget 1 (some (.stream stream))), machine⟩
    let (flow, after) := runScript fuel false script (inner.mapProcess Process.copy)
    let ended (pending : Option Flow) (machine : Machine) : String × State :=
      let process := { state.process with captured := after.process.status, pending }
      (trimmedOutput (machine.content stream), ⟨process, machine⟩)
    match flow with
    | .stopped | .signaled _ _ => ended (some flow) after.machine
    | _ =>
      match after.machine.waitForHolders [stream] with
      | some machine => ended state.process.pending machine
      | none => ended (some .stopped) after.machine.stopped

/-- The value of a parameter, after what is to be made of it; the second part says whether a
word took its place. -/
def parameterValue (fuel : Nat) (quoted : Bool) (name : String) (use : ParameterUse)
    (state : State) : String × State :=
  match fuel with
  | 0 => ("", state)
  | fuel + 1 =>
    let value := state.process.special? name
    let missing (orEmpty : Bool) : Bool :=
      if orEmpty then value.all String.isEmpty else value.isNone
    let word (text : String) : String × State :=
      match if quoted then quotedWord? text else plainWord? text with
      | some word =>
        let (pieces, state) := expand fuel false word state
        (textOf pieces, state)
      | none => ("", state)
    let pattern (text : String) : List Marked × State :=
      match plainWord? text with
      | some word =>
        let (pieces, state) := expand fuel false word state
        (marked pieces, state)
      | none => ([], state)
    match use with
    | .value =>
      if state.process.refusesUnset && value.isNone && name != "@" && name != "*" then
        ("", state.abandon (name ++ ": parameter not set"))
      else (value.getD "", state)
    | .length => (toString (value.getD "").length, state)
    | .fallback orEmpty text => if missing orEmpty then word text else (value.getD "", state)
    | .assign orEmpty text =>
      if missing orEmpty then
        let (text, state) := word text
        (text, state.mapProcess (·.set name text))
      else (value.getD "", state)
    | .instead orEmpty text => if missing orEmpty then ("", state) else word text
    | .complain orEmpty text =>
      if missing orEmpty then
        let reason := if text.isEmpty then "parameter not set" else text
        ("", state.abandon (name ++ ": " ++ reason))
      else (value.getD "", state)
    | .withoutEnd longest text =>
      let (pattern, state) := pattern text
      (String.ofList (dropMatchingEnd longest pattern (value.getD "").toList), state)
    | .withoutStart longest text =>
      let (pattern, state) := pattern text
      (String.ofList (dropMatchingStart longest pattern (value.getD "").toList), state)

/-- Expand the parts of a word; `splits` says whether unquoted values are cut into fields. -/
def expand (fuel : Nat) (splits : Bool) (word : Word) (state : State) : List Piece × State :=
  match fuel, word with
  | 0, _ | _, [] => ([], state)
  | fuel + 1, ⟨kind, quoted⟩ :: parts =>
    let separators := (state.process.get? "IFS").getD " \t\n"
    let pieces (text : String) : List Piece :=
      if quoted then quotedPieces text else plainPieces splits separators text
    let (found, state) : List Piece × State := match kind with
      | .text text => (if quoted then quotedPieces text else plainPieces false "" text, state)
      | .parameter "@" .value =>
        if quoted && splits then
          let texts := state.process.arguments.map quotedPieces
          (List.intercalate [.cut] texts, state)
        else (pieces (" ".intercalate state.process.arguments), state)
      | .parameter name use =>
        let (text, state) := parameterValue fuel quoted name use state
        (pieces text, state)
      | .output script =>
        let (text, state) := captureOutput fuel script state
        (pieces text, state)
      | .arithmetic expression =>
        let (text, state) : String × State := match quotedWord? expression with
          | some word =>
            let (found, state) := expand fuel false word state
            (textOf found, state)
          | none => (expression, state)
        let value (name : String) : Int := ((state.process.get? name).bind integer?).getD 0
        match arithmetic? value text with
        | some n => (pieces (toString n), state)
        | none => ([], state.abandon ("arithmetic expression: " ++ text))
    let (more, state) := expand fuel splits parts state
    (found ++ more, state)

/-- Expand words to fields. -/
def expandAll (fuel : Nat) (words : List Word) (state : State) : List String × State :=
  match fuel, words with
  | 0, _ | _, [] => ([], state)
  | fuel + 1, word :: words =>
    let (texts, state) : List String × State :=
      match word with
      | [⟨.text "", true⟩, ⟨.parameter "@" .value, true⟩] => (state.process.arguments, state)
      | word =>
        let (pieces, state) := expand fuel true word state
        ((fields none pieces).flatMap (expandGlob state.tree), state)
    let (more, state) := expandAll fuel words state
    (texts ++ more, state)

end

end SuiteRunner.Shell
