import SuiteRunner.Shell.Reader

/-!
# Reading scripts

A script is a list of pipelines, joined by `;`, `&`, `&&`, `||` and line ends. A reserved
word counts only where a command may begin.
-/

namespace SuiteRunner.Shell

/-- The text of a word of which nothing is quoted or substituted. -/
def Word.bare? (word : Word) : Option String :=
  match word with
  | [⟨.text text, false⟩] => some text
  | _ => none

/-- The words that end a list of commands. -/
def closingWords : List String :=
  ["then", "else", "elif", "fi", "do", "done", "esac", "\x7d"]

/-- Whether a list of commands ends here. -/
def isClosing : List Token → Bool
  | [] => true
  | .operator text :: _ => text == ")" || text == ";;"
  | .word word :: _ => word.bare?.any closingWords.contains
  | _ => false

def skipNewlines : List Token → List Token
  | .newline :: rest => skipNewlines rest
  | rest => rest

/-- What follows a reserved word that has to stand here. -/
def afterWord? (text : String) : List Token → Option (List Token)
  | .word word :: rest => if word.bare? = some text then some rest else none
  | _ => none

/-- The name and the value of an assignment. -/
def assignment? (word : Word) : Option (String × Word) :=
  match word with
  | ⟨.text text, false⟩ :: parts =>
    let name := text.toList.takeWhile (· != '=')
    match name, text.toList.drop name.length with
    | c :: cs, _ :: value =>
      if isNameStart c && cs.all isNameChar then
        let parts := if value.isEmpty then parts else ⟨.text (String.ofList value), false⟩ :: parts
        some (String.ofList name, parts)
      else none
    | _, _ => none
  | _ => none

def redirectKind? : String → Option (RedirectKind × Nat)
  | "<" => some (.input, 0)
  | "<<" => some (.content, 0)
  | ">" | ">|" => some (.output, 1)
  | ">>" => some (.append, 1)
  | "<&" => some (.duplicate, 0)
  | ">&" => some (.duplicate, 1)
  | _ => none

/-- A redirection, if there is one here. -/
def redirect? (tokens : List Token) : Option (Redirect × List Token) :=
  match tokens with
  | .descriptor number :: .operator text :: .word target :: rest =>
    (redirectKind? text).map fun (kind, _) => (⟨number, kind, target⟩, rest)
  | .operator text :: .word target :: rest =>
    (redirectKind? text).map fun (kind, number) => (⟨number, kind, target⟩, rest)
  | _ => none

def redirects (fuel : Nat) (tokens : List Token) : List Redirect × List Token :=
  match fuel with
  | 0 => ([], tokens)
  | fuel + 1 =>
    match redirect? tokens with
    | some (redirect, rest) =>
      let (more, rest) := redirects fuel rest
      (redirect :: more, rest)
    | none => ([], tokens)

def Command.withRedirects (command : Command) (redirects : List Redirect) : Command :=
  if redirects.isEmpty then command else .redirected command redirects

/-- Read on in a simple command. -/
def simpleFrom? (fuel : Nat) (assignments : List (String × Word)) (words : List Word)
    (found : List Redirect) (tokens : List Token) : Option (Command × List Token) :=
  match fuel with
  | 0 => none
  | fuel + 1 =>
    match redirect? tokens with
    | some (redirect, rest) => simpleFrom? fuel assignments words (redirect :: found) rest
    | none =>
      match tokens with
      | .word word :: rest =>
        match if words.isEmpty then assignment? word else none with
        | some assignment => simpleFrom? fuel (assignment :: assignments) words found rest
        | none => simpleFrom? fuel assignments (word :: words) found rest
      | tokens =>
        if assignments.isEmpty && words.isEmpty && found.isEmpty then none
        else
          let command : Command := .simple assignments.reverse words.reverse
          some (command.withRedirects found.reverse, tokens)

/-- The words up to the end of the line, or to a semicolon. -/
def wordList (tokens : List Token) : List Word × List Token :=
  match tokens with
  | .word word :: rest =>
    let (words, rest) := wordList rest
    (word :: words, rest)
  | tokens => ([], tokens)

/-- The patterns of a branch, with a bar between each two, up to the parenthesis. -/
def branchPatterns? : List Token → Option (List Word × List Token)
  | .word word :: .operator "|" :: rest =>
    (branchPatterns? rest).map fun (words, rest) => (word :: words, rest)
  | .word word :: .operator ")" :: rest => some ([word], rest)
  | _ => none

/-- The separator in front of `do`. -/
def skipSeparator : List Token → List Token
  | .operator ";" :: rest => skipNewlines rest
  | rest => skipNewlines rest

mutual

/-- Read commands up to where a list ends. -/
def list? (fuel : Nat) (tokens : List Token) : Option (Command × List Token) :=
  match fuel with
  | 0 => none
  | fuel + 1 =>
    let tokens := skipNewlines tokens
    if isClosing tokens then some (.nothing, tokens)
    else do
      let (first, rest) ← andOr? fuel tokens
      match rest with
      | .operator "&" :: rest =>
        let (others, rest) ← list? fuel rest
        return (.sequence (.background first) others, rest)
      | .operator ";" :: rest | .newline :: rest =>
        let (others, rest) ← list? fuel rest
        return (.sequence first others, rest)
      | rest => if isClosing rest then return (first, rest) else none

def andOr? (fuel : Nat) (tokens : List Token) : Option (Command × List Token) :=
  match fuel with
  | 0 => none
  | fuel + 1 => do
    let (first, rest) ← pipeline? fuel tokens
    andOrFrom? fuel first rest

/-- Read on behind the first of commands that depend on each other. -/
def andOrFrom? (fuel : Nat) (first : Command) (tokens : List Token) :
    Option (Command × List Token) :=
  match fuel with
  | 0 => none
  | fuel + 1 =>
    match tokens with
    | .operator "&&" :: rest => do
      let (second, rest) ← pipeline? fuel (skipNewlines rest)
      andOrFrom? fuel (.both first second) rest
    | .operator "||" :: rest => do
      let (second, rest) ← pipeline? fuel (skipNewlines rest)
      andOrFrom? fuel (.either first second) rest
    | rest => some (first, rest)

def pipeline? (fuel : Nat) (tokens : List Token) : Option (Command × List Token) :=
  match fuel with
  | 0 => none
  | fuel + 1 =>
    match afterWord? "!" tokens with
    | some rest => (pipeline? fuel rest).map fun (command, rest) => (.negated command, rest)
    | none => do
      let (first, rest) ← command? fuel tokens
      pipelineFrom? fuel first rest

def pipelineFrom? (fuel : Nat) (first : Command) (tokens : List Token) :
    Option (Command × List Token) :=
  match fuel with
  | 0 => none
  | fuel + 1 =>
    match tokens with
    | .operator "|" :: rest => do
      let (second, rest) ← command? fuel (skipNewlines rest)
      pipelineFrom? fuel (.pipe first second) rest
    | rest => some (first, rest)

def command? (fuel : Nat) (tokens : List Token) : Option (Command × List Token) :=
  match fuel with
  | 0 => none
  | fuel + 1 =>
    match tokens with
    | .operator "(" :: rest =>
      match list? fuel rest with
      | some (body, .operator ")" :: rest) =>
        let (found, rest) := redirects rest.length rest
        some ((Command.subshell body).withRedirects found, rest)
      | _ => none
    | .word name :: .operator "(" :: .operator ")" :: rest => do
      let (body, rest) ← command? fuel (skipNewlines rest)
      return (.function (← name.bare?) body, rest)
    | .word word :: rest =>
      match compound? fuel (word.bare?.getD "") rest with
      | some none => none
      | some (some (command, rest)) =>
        let (found, rest) := redirects rest.length rest
        some (command.withRedirects found, rest)
      | none => simpleFrom? (tokens.length + 1) [] [] [] tokens
    | tokens => simpleFrom? (tokens.length + 1) [] [] [] tokens

/-- Read on behind a reserved word; `some none` says that the command is malformed, and `none`
that the word is not reserved. -/
def compound? (fuel : Nat) (word : String) (tokens : List Token) :
    Option (Option (Command × List Token)) :=
  match fuel with
  | 0 => none
  | fuel + 1 =>
    match word with
    | "\x7b" => some do
      let (body, rest) ← list? fuel tokens
      return (body, ← afterWord? "\x7d" rest)
    | "if" => some (conditional? fuel tokens)
    | "while" => some (loop? fuel true tokens)
    | "until" => some (loop? fuel false tokens)
    | "for" => some do
      match tokens with
      | .word name :: rest =>
        let (words, rest) : Option (List Word) × List Token :=
          match afterWord? "in" (skipNewlines rest) with
          | some rest =>
            let (words, rest) := wordList rest
            (some words, rest)
          | none => (none, rest)
        let rest ← afterWord? "do" (skipSeparator rest)
        let (body, rest) ← list? fuel rest
        return (.forEach (← name.bare?) words body, ← afterWord? "done" rest)
      | _ => none
    | "case" => some do
      match tokens with
      | .word word :: rest =>
        let rest ← afterWord? "in" (skipNewlines rest)
        branches? fuel word (skipNewlines rest)
      | _ => none
    | word => if closingWords.contains word then some none else none

/-- Read on behind `if`. -/
def conditional? (fuel : Nat) (tokens : List Token) : Option (Command × List Token) :=
  match fuel with
  | 0 => none
  | fuel + 1 => do
    let (condition, rest) ← list? fuel tokens
    let (yes, rest) ← list? fuel (← afterWord? "then" rest)
    match afterWord? "elif" rest, afterWord? "else" rest with
    | some rest, _ =>
      let (no, rest) ← conditional? fuel rest
      return (.conditional condition yes no, rest)
    | none, some rest =>
      let (no, rest) ← list? fuel rest
      return (.conditional condition yes no, ← afterWord? "fi" rest)
    | none, none => return (.conditional condition yes .nothing, ← afterWord? "fi" rest)

def loop? (fuel : Nat) (wanted : Bool) (tokens : List Token) : Option (Command × List Token) :=
  match fuel with
  | 0 => none
  | fuel + 1 => do
    let (condition, rest) ← list? fuel tokens
    let (body, rest) ← list? fuel (← afterWord? "do" rest)
    return (.loop wanted condition body, ← afterWord? "done" rest)

/-- Read the branches of a choice. -/
def branches? (fuel : Nat) (word : Word) (tokens : List Token) : Option (Command × List Token) :=
  match fuel with
  | 0 => none
  | fuel + 1 =>
    match afterWord? "esac" tokens with
    | some rest => some (.nothing, rest)
    | none => do
      let tokens := match tokens with
        | .operator "(" :: rest => rest
        | tokens => tokens
      let (patterns, rest) ← branchPatterns? tokens
      let (body, rest) ← list? fuel rest
      let rest := match rest with
        | .operator ";;" :: rest => skipNewlines rest
        | rest => rest
      let (others, rest) ← branches? fuel word rest
      return (.choose word patterns body others, rest)

end

/-- Read the commands of one line, which may itself go over several lines. -/
def line? (fuel : Nat) (tokens : List Token) : Option (Command × List Token) :=
  match fuel with
  | 0 => none
  | fuel + 1 => do
    let (first, rest) ← andOr? (8 * tokens.length + 16) tokens
    let (first, rest, ends) : Command × List Token × Bool := match rest with
      | .operator "&" :: rest => (.background first, rest, false)
      | .operator ";" :: rest => (first, rest, false)
      | rest => (first, rest, true)
    match rest with
    | [] => return (first, [])
    | .newline :: rest => return (first, rest)
    | rest =>
      if ends then none
      else
        let (others, rest) ← line? fuel rest
        return (.sequence first others, rest)

/-- Read line after line, as far as they can be read. -/
def linesOfCommands (fuel : Nat) (tokens : List Token) : Command :=
  match fuel with
  | 0 => .malformed
  | fuel + 1 =>
    match skipNewlines tokens with
    | [] => .nothing
    | tokens =>
      match line? (tokens.length + 1) tokens with
      | some (command, []) => command
      | some (command, rest) => .sequence command (linesOfCommands fuel rest)
      | none => .malformed

/-- Read a whole script. -/
def Command.parse (script : String) : Command :=
  let tokens := tokens script
  linesOfCommands (tokens.length + 1) tokens

end SuiteRunner.Shell
