import SuiteRunner.Toml.Quoted
import SuiteRunner.Toml.Table

/-!
# Reading a TOML document

A document is a sequence of lines, each a key with its value, a table header, a comment
or nothing. Only arrays and multi-line strings may go over several lines. What is
malformed, a place defined twice included, has no reading at all.
-/

namespace SuiteRunner.Toml

/-! ### Between the tokens -/

/-- Skip a comment, which ends in front of the line end. -/
def skipComment (cs : List Char) : List Char :=
  match cs with
  | '#' :: rest => rest.dropWhile isPrintable
  | cs => cs

/-- What follows the current line, if nothing but blanks and a comment is left on it. -/
def endOfLine? (cs : List Char) : Option (List Char) :=
  match skipComment (skipSpaces cs) with
  | [] => some []
  | rest => newline? rest

/-- Skip blanks, line ends and comments. -/
def skipFiller : (fuel : Nat) → List Char → List Char
  | 0, cs => cs
  | fuel + 1, cs =>
    match newline? cs with
    | some rest => skipFiller fuel rest
    | none =>
      match cs with
      | [] => []
      | c :: rest =>
        if isSpace c then skipFiller fuel rest
        else if c = '#' then skipFiller fuel (skipComment (c :: rest))
        else c :: rest

/-! ### Values -/

/-- The items up to the closing bracket; a comma may stand behind the last one. -/
def items (item : Reader Value) : (fuel : Nat) → Reader (List Value)
  | 0, _ => none
  | fuel + 1, cs =>
    match skipFiller cs.length cs with
    | ']' :: rest => some ([], rest)
    | cs => do
      let (first, rest) ← item cs
      match skipFiller rest.length rest with
      | ',' :: rest =>
        let (more, rest) ← items item fuel rest
        return (first :: more, rest)
      | ']' :: rest => return ([first], rest)
      | _ => none

/-- A key with its value. -/
def pairOf (item : Reader Value) : Reader (List String × Value) := fun cs => do
  let (k, rest) ← key cs
  let rest ← expect '=' rest
  let (value, rest) ← item (skipSpaces rest)
  return ((k, value), rest)

/-- The pairs up to the closing brace. All of them stand on one line, and no comma stands
behind the last one. -/
def pairs (item : Reader Value) : (fuel : Nat) → Reader (List (List String × Value))
  | 0, _ => none
  | fuel + 1, cs => do
    let (first, rest) ← pairOf item cs
    match skipSpaces rest with
    | ',' :: rest =>
      let (more, rest) ← pairs item fuel rest
      return (first :: more, rest)
    | '\x7d' :: rest => return ([first], rest)
    | _ => none

def inlineTable (item : Reader Value) : Reader (List (List String × Value)) := fun cs =>
  match skipSpaces cs with
  | '\x7d' :: rest => some ([], rest)
  | cs => pairs item (cs.length + 1) cs

/-- The pairs of a table in braces, put together. -/
def ofPairs (found : List (List String × Value)) : Option Value := do
  let entries ← found.foldlM (fun entries (k, value) => assign k (.value value) .defined entries) []
  return .table (entriesToValues entries)

/-- A value with at most `depth` arrays and tables around its innermost part. -/
def value : (depth : Nat) → Reader Value
  | depth, cs =>
    match cs with
    | [] => none
    | '[' :: rest =>
      match depth with
      | 0 => none
      | depth + 1 => do
        let (found, rest) ← items (value depth) (rest.length + 1) rest
        return (.array found, rest)
    | '\x7b' :: rest =>
      match depth with
      | 0 => none
      | depth + 1 => do
        let (found, rest) ← inlineTable (value depth) rest
        return (← ofPairs found, rest)
    | c :: rest =>
      if c = '"' ∨ c = '\'' then (quoted cs).map fun (text, rest) => (.string text, rest)
      else if c = 't' ∨ c = 'f' then boolean (c :: rest)
      else if c = 'i' ∨ c = 'n' then specialFloat (c :: rest)
      else number (c :: rest)

/-! ### Lines -/

/-- One line, up to and including its line end. -/
def line (draft : Draft) (cs : List Char) : Option (Draft × List Char) :=
  match cs with
  | '[' :: '[' :: rest => do
    let (path, rest) ← key rest
    let rest ← expect ']' (← expect ']' rest)
    let rest ← endOfLine? rest
    return (← draft.openArrayTable path, rest)
  | '[' :: rest => do
    let (path, rest) ← key rest
    let rest ← endOfLine? (← expect ']' rest)
    return (← draft.openTable path, rest)
  | cs => do
    let ((k, found), rest) ← pairOf (value (nestingLimit - 1)) cs
    let rest ← endOfLine? rest
    return (← draft.set k (.value found), rest)

def linesFrom : (fuel : Nat) → Draft → List Char → Option Draft
  | 0, _, _ => none
  | fuel + 1, draft, cs =>
    match skipSpaces cs with
    | [] => some draft
    | '#' :: rest => do linesFrom fuel draft (← endOfLine? ('#' :: rest))
    | cs =>
      match newline? cs with
      | some rest => linesFrom fuel draft rest
      | none => do
        let (draft, rest) ← line draft cs
        linesFrom fuel draft rest

/-- A byte order mark in front of the text is ignored. -/
def dropByteOrderMark : List Char → List Char
  | '\ufeff' :: rest => rest
  | cs => cs

/-- The entries of a document, if it is well formed. -/
def read (text : String) : Option (List (String × Value)) := do
  let cs := dropByteOrderMark text.toList
  let draft ← linesFrom (cs.length + 1) {} cs
  draft.finish

end SuiteRunner.Toml
