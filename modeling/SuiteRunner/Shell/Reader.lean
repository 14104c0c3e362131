import SuiteRunner.Shell.Syntax
import SuiteRunner.Text.Basic

/-!
# Tokens of the shell language

A script is cut into words and operators. A word keeps track of which of its parts were
quoted, and of the substitutions in it.
-/

namespace SuiteRunner.Shell

inductive Token where
  | word (word : Word)
  | operator (text : String)
  /-- A number directly in front of a redirection. -/
  | descriptor (number : Nat)
  | newline
  /-- Stands where a quote or a substitution begins that does not end. -/
  | unclosed
  deriving DecidableEq, Repr

/-! ### Characters -/

def isNameStart (c : Char) : Bool := c.isAlpha || c == '_'

def isNameChar (c : Char) : Bool := isNameStart c || c.isDigit

/-- The parameters whose names are no letters. -/
def isSpecial (c : Char) : Bool :=
  c == '@' || c == '*' || c == '#' || c == '?' || c == '-' || c == '$' || c == '!'

def endsWord (c : Char) : Bool :=
  c == ' ' || c == '\t' || c == '\n' || c == ';' || c == '&' || c == '|' || c == '<' || c == '>' ||
    c == '(' || c == ')'

/-! ### Enclosed text -/

/-- What stands in front of the closing character that matches, and what behind it. The
closing characters inside quotes do not count, and every opening one needs its own. -/
def enclosed? (opening closing : Char) (depth : Nat) (quote : Option Char) :
    List Char → Option (List Char × List Char)
  | [] => none
  | '\\' :: c :: rest =>
    if quote = some '\'' then
      let quote := if c = '\'' then none else quote
      (enclosed? opening closing depth quote rest).map fun (inside, rest) =>
        ('\\' :: c :: inside, rest)
    else
      (enclosed? opening closing depth quote rest).map fun (inside, rest) =>
        ('\\' :: c :: inside, rest)
  | c :: rest =>
    let keep (depth : Nat) (quote : Option Char) :=
      (enclosed? opening closing depth quote rest).map fun (inside, rest) => (c :: inside, rest)
    match quote with
    | some q => keep depth (if c = q then none else quote)
    | none =>
      if c = '\'' || c = '"' then keep depth (some c)
      else if c = closing then
        match depth with
        | 0 => some ([], rest)
        | depth + 1 => keep depth none
      else if c = opening then keep (depth + 1) none
      else keep depth none

/-- What stands in front of the next backquote, and what behind it. -/
def backquoted? : List Char → Option (List Char × List Char)
  | [] => none
  | '`' :: rest => some ([], rest)
  | '\\' :: c :: rest =>
    (backquoted? rest).map fun (inside, rest) =>
      (if c = '`' || c = '\\' || c = '$' then (c :: inside, rest) else ('\\' :: c :: inside, rest))
  | c :: rest => (backquoted? rest).map fun (inside, rest) => (c :: inside, rest)

/-! ### Parameters -/

/-- The name of a parameter at the beginning of a text. -/
def parameterName (text : List Char) : List Char × List Char :=
  match text with
  | c :: rest =>
    if isNameStart c then (text.takeWhile isNameChar, text.dropWhile isNameChar)
    else if c.isDigit || isSpecial c then ([c], rest)
    else ([], text)
  | [] => ([], [])

/-- What stands behind the name of a parameter in braces. -/
def parameterUse? (text : List Char) : Option ParameterUse :=
  let word (rest : List Char) := String.ofList rest
  match text with
  | [] => some .value
  | ':' :: '-' :: rest => some (.fallback true (word rest))
  | '-' :: rest => some (.fallback false (word rest))
  | ':' :: '=' :: rest => some (.assign true (word rest))
  | '=' :: rest => some (.assign false (word rest))
  | ':' :: '+' :: rest => some (.instead true (word rest))
  | '+' :: rest => some (.instead false (word rest))
  | ':' :: '?' :: rest => some (.complain true (word rest))
  | '?' :: rest => some (.complain false (word rest))
  | '%' :: '%' :: rest => some (.withoutEnd true (word rest))
  | '%' :: rest => some (.withoutEnd false (word rest))
  | '#' :: '#' :: rest => some (.withoutStart true (word rest))
  | '#' :: rest => some (.withoutStart false (word rest))
  | _ => none

/-- A parameter in braces. -/
def bracedParameter? (text : List Char) : Option PartKind :=
  match text with
  | '#' :: c :: rest =>
    let (name, behind) := parameterName (c :: rest)
    if behind.isEmpty && !name.isEmpty then some (.parameter (String.ofList name) .length)
    else (parameterUse? (c :: rest)).map (.parameter "#")
  | text =>
    let (name, behind) := parameterName text
    if name.isEmpty then none
    else
      let digits := if name.all Char.isDigit then behind.takeWhile Char.isDigit else []
      (parameterUse? (behind.drop digits.length)).map (.parameter (String.ofList (name ++ digits)))

/-- Read what follows a dollar sign. -/
def dollar? (text : List Char) : Option (PartKind × List Char) :=
  match text with
  | '(' :: '(' :: rest =>
    match enclosed? '(' ')' 0 none rest with
    | some (inside, ')' :: rest) => some (.arithmetic (String.ofList inside), rest)
    | _ =>
      (enclosed? '(' ')' 0 none ('(' :: rest)).map fun (inside, rest) =>
        (.output (String.ofList inside), rest)
  | '(' :: rest =>
    (enclosed? '(' ')' 0 none rest).map fun (inside, rest) => (.output (String.ofList inside), rest)
  | '\x7b' :: rest => do
    let (inside, rest) ← enclosed? '\x7b' '\x7d' 0 none rest
    return (← bracedParameter? inside, rest)
  | text =>
    match parameterName text with
    | ([], rest) => some (.text "$", rest)
    | (name, rest) => some (.parameter (String.ofList name) .value, rest)

/-! ### Words -/

/-- Put literal characters in front of the parts of a word. -/
def withText (literal : List Char) (quoted : Bool) (parts : Word) : Word :=
  if literal.isEmpty then parts else ⟨.text (String.ofList literal.reverse), quoted⟩ :: parts

/-- Read on where everything is quoted, up to a closing character or to the end; `literal` are
the characters since the last part, and `parts` the parts, both the latest first. -/
def quotedFrom? (closing : Option Char) (fuel : Nat) (literal : List Char) (parts : Word)
    (text : List Char) : Option (Word × List Char) :=
  match fuel with
  | 0 => none
  | fuel + 1 =>
    match text with
    | [] => if closing.isNone then some (withText literal true parts, []) else none
    | '\\' :: '\n' :: rest => quotedFrom? closing fuel literal parts rest
    | '\\' :: c :: rest =>
      if c = '$' || c = '`' || c = '\\' || closing = some c then
        quotedFrom? closing fuel (c :: literal) parts rest
      else quotedFrom? closing fuel (c :: '\\' :: literal) parts rest
    | '$' :: rest => do
      let (kind, rest) ← dollar? rest
      quotedFrom? closing fuel [] (⟨kind, true⟩ :: withText literal true parts) rest
    | '`' :: rest => do
      let (script, rest) ← backquoted? rest
      let part : Part := ⟨.output (String.ofList script), true⟩
      quotedFrom? closing fuel [] (part :: withText literal true parts) rest
    | c :: rest =>
      if closing = some c then some (withText literal true parts, rest)
      else quotedFrom? closing fuel (c :: literal) parts rest

/-- Read on in a word that goes as far as a character that ends it. -/
def wordFrom? (ends : Char → Bool) (fuel : Nat) (literal : List Char) (parts : Word)
    (text : List Char) : Option (Word × List Char) :=
  match fuel with
  | 0 => none
  | fuel + 1 =>
    match text with
    | [] => some ((withText literal false parts).reverse, [])
    | '\'' :: rest =>
      let inside := rest.takeWhile (· != '\'')
      match rest.drop inside.length with
      | [] => none
      | _ :: rest =>
        let part : Part := ⟨.text (String.ofList inside), true⟩
        wordFrom? ends fuel [] (part :: withText literal false parts) rest
    | '"' :: rest => do
      let before : Word := ⟨.text "", true⟩ :: withText literal false parts
      let (parts, rest) ← quotedFrom? (some '"') fuel [] before rest
      wordFrom? ends fuel [] parts rest
    | '\\' :: '\n' :: rest => wordFrom? ends fuel literal parts rest
    | '\\' :: c :: rest =>
      let part : Part := ⟨.text (String.singleton c), true⟩
      wordFrom? ends fuel [] (part :: withText literal false parts) rest
    | '$' :: rest => do
      let (kind, rest) ← dollar? rest
      wordFrom? ends fuel [] (⟨kind, false⟩ :: withText literal false parts) rest
    | '`' :: rest => do
      let (script, rest) ← backquoted? rest
      let part : Part := ⟨.output (String.ofList script), false⟩
      wordFrom? ends fuel [] (part :: withText literal false parts) rest
    | c :: rest =>
      if ends c then some ((withText literal false parts).reverse, text)
      else wordFrom? ends fuel (c :: literal) parts rest

/-- A text as a quoted word, its substitutions still to be made. -/
def quotedWord? (text : String) : Option Word :=
  (quotedFrom? none (text.length + 1) [] [⟨.text "", true⟩] text.toList).map
    fun (parts, _) => parts.reverse

/-- A text as an unquoted word. -/
def plainWord? (text : String) : Option Word :=
  (wordFrom? (fun _ => false) (text.length + 1) [] [] text.toList).map (·.1)

/-! ### Tokens -/

/-- The operators, a longer one before its beginnings. -/
def operators : List String :=
  ["&&", "||", ";;", "<<", ">>", "<&", ">&", ">|", "<", ">", "|", "&", ";", "(", ")"]

def operator? (text : List Char) : Option (String × List Char) :=
  operators.findSome? fun operator =>
    (Text.after? operator.toList text).map fun rest => (operator, rest)

/-- The text of a word that consists of digits only. -/
def descriptorOf? (word : Word) : Option Nat :=
  match word with
  | [⟨.text text, false⟩] => if text.all Char.isDigit then text.toNat? else none
  | _ => none

/-- The lines in front of one that is `delimiter`, and what comes behind that one. -/
def hereDocument (withoutTabs : Bool) (delimiter : List Char) :
    List (List Char) → List (List Char) × List (List Char)
  | [] => ([], [])
  | line :: lines =>
    let line := if withoutTabs then line.dropWhile (· == '\t') else line
    if line = delimiter then ([], lines)
    else
      let (inside, rest) := hereDocument withoutTabs delimiter lines
      (line :: inside, rest)

/-- The characters of a word that is not expanded. -/
def literalText (word : Word) : List Char :=
  word.flatMap fun part =>
    match part.kind with
    | .text text => text.toList
    | _ => []

/-- Read on behind the operator that announces a content in the lines below, and take those
lines out of the text. -/
def announced? (text : List Char) : Option (Word × List Char) := do
  let (withoutTabs, text) := match text with
    | '-' :: rest => (true, rest)
    | rest => (false, rest)
  let text := text.dropWhile fun c => c == ' ' || c == '\t'
  let (word, rest) ← wordFrom? endsWord (text.length + 1) [] [] text
  let line := rest.takeWhile (· != '\n')
  let (inside, others) := hereDocument withoutTabs (literalText word)
    (Text.split '\n' (rest.drop (line.length + 1)))
  let content := String.ofList (inside.flatMap (· ++ ['\n']))
  let rest := line ++ '\n' :: Text.join ['\n'] others
  if word.any (·.quoted) then return ([⟨.text content, true⟩], rest)
  else return (← quotedWord? content, rest)

def tokensFrom (fuel : Nat) (text : List Char) : List Token :=
  match fuel with
  | 0 => [.unclosed]
  | fuel + 1 =>
    match text with
    | [] => []
    | ' ' :: rest | '\t' :: rest | '\\' :: '\n' :: rest => tokensFrom fuel rest
    | '\n' :: rest => .newline :: tokensFrom fuel rest
    | '#' :: rest => tokensFrom fuel (rest.dropWhile (· != '\n'))
    | text =>
      match operator? text with
      | some ("<<", rest) =>
        match announced? rest with
        | some (content, rest) => .operator "<<" :: .word content :: tokensFrom fuel rest
        | none => [.unclosed]
      | some (operator, rest) => .operator operator :: tokensFrom fuel rest
      | none =>
        match wordFrom? endsWord (text.length + 1) [] [] text with
        | none => [.unclosed]
        | some (word, rest) =>
          match descriptorOf? word, rest with
          | some number, '<' :: _ | some number, '>' :: _ =>
            .descriptor number :: tokensFrom fuel rest
          | _, _ => .word word :: tokensFrom fuel rest

/-- Cut a script into tokens. -/
def tokens (script : String) : List Token := tokensFrom (2 * script.length + 2) script.toList

end SuiteRunner.Shell
