import SuiteRunner.Toml.Scalar

/-!
# Strings and keys

Four kinds of quotes: basic strings know escapes, literal strings do not, and each
comes on one line or, with three quotes, on several. Line ends inside a string are
single line feeds however they were written.
-/

namespace SuiteRunner.Toml

/-- Characters that may stand unescaped in a comment or string: everything but control
characters other than the tab. -/
def isPrintable (c : Char) : Bool :=
  c == '\t' || (0x20 ≤ c.val && c.val ≤ 0x7E) || 0x80 ≤ c.val

def isSpace (c : Char) : Bool := c == ' ' || c == '\t'

def skipSpaces (cs : List Char) : List Char := cs.dropWhile isSpace

/-- What follows a line end, if the input begins with one. -/
def newline? : List Char → Option (List Char)
  | '\n' :: rest => some rest
  | '\r' :: '\n' :: rest => some rest
  | _ => none

/-! ### Escapes -/

def hexDigits : (count : Nat) → Reader (List Nat)
  | 0, cs => some ([], cs)
  | _ + 1, [] => none
  | count + 1, c :: rest => do
    let d ← digit? 16 c
    let (ds, rest) ← hexDigits count rest
    return (d :: ds, rest)

/-- A character given by its number; surrogates and numbers out of range are none. -/
def scalarValue (count : Nat) : Reader Char := fun cs => do
  let (ds, rest) ← hexDigits count cs
  let value := valueOf 16 ds
  if value.isValidChar then some (Char.ofNat value, rest) else none

/-- The character that follows a backslash stands for. -/
def escape : Reader Char
  | 'b' :: rest => some ('\x08', rest)
  | 't' :: rest => some ('\t', rest)
  | 'n' :: rest => some ('\n', rest)
  | 'f' :: rest => some ('\x0c', rest)
  | 'r' :: rest => some ('\r', rest)
  | '"' :: rest => some ('"', rest)
  | '\\' :: rest => some ('\\', rest)
  | 'u' :: rest => scalarValue 4 rest
  | 'U' :: rest => scalarValue 8 rest
  | _ => none

/-! ### On one line -/

/-- The characters up to the closing quote. The bound `fuel` is the length of the input. -/
def basicBody : (fuel : Nat) → Reader (List Char)
  | 0, _ => none
  | _ + 1, [] => none
  | fuel + 1, c :: rest =>
    if c = '"' then some ([], rest)
    else if c = '\\' then do
      let (c, rest) ← escape rest
      let (text, rest) ← basicBody fuel rest
      return (c :: text, rest)
    else if isPrintable c then do
      let (text, rest) ← basicBody fuel rest
      return (c :: text, rest)
    else none

def literalBody : Reader (List Char)
  | [] => none
  | c :: rest =>
    if c = '\'' then some ([], rest)
    else if isPrintable c then (literalBody rest).map fun (text, rest) => (c :: text, rest)
    else none

/-! ### On several lines -/

/-- The number of quotes at the beginning, at most five, and what follows them. -/
def quoteRun (quote : Char) : (limit : Nat) → List Char → Nat × List Char
  | 0, cs => (0, cs)
  | limit + 1, c :: rest =>
    if c = quote then
      let (count, rest) := quoteRun quote limit rest
      (count + 1, rest)
    else (0, c :: rest)
  | _ + 1, [] => (0, [])

/-- Skip blanks and line ends. -/
def skipBlankLines : (fuel : Nat) → List Char → List Char
  | 0, cs => cs
  | fuel + 1, cs =>
    match newline? cs with
    | some rest => skipBlankLines fuel rest
    | none =>
      match cs with
      | c :: rest => if isSpace c then skipBlankLines fuel rest else c :: rest
      | [] => []

/-- A backslash at the end of a line swallows the line end and all blanks behind it. -/
def foldedLine? (fuel : Nat) (cs : List Char) : Option (List Char) :=
  (newline? (skipSpaces cs)).map (skipBlankLines fuel)

/-- The characters up to three closing quotes; up to two more quotes in front of those
belong to the text. -/
def multilineBody (quote : Char) (escapes : Bool) : (fuel : Nat) → Reader (List Char)
  | 0, _ => none
  | _ + 1, [] => none
  | fuel + 1, c :: rest =>
    if c = quote then
      match quoteRun quote 5 (c :: rest) with
      | (count, behind) =>
        if 3 ≤ count then some (List.replicate (count - 3) quote, behind)
        else do
          let (text, rest) ← multilineBody quote escapes fuel behind
          return (List.replicate count quote ++ text, rest)
    else if escapes ∧ c = '\\' then
      match foldedLine? fuel rest with
      | some rest => multilineBody quote escapes fuel rest
      | none => do
        let (c, rest) ← escape rest
        let (text, rest) ← multilineBody quote escapes fuel rest
        return (c :: text, rest)
    else
      match newline? (c :: rest) with
      | some rest => do
        let (text, rest) ← multilineBody quote escapes fuel rest
        return ('\n' :: text, rest)
      | none =>
        if isPrintable c then do
          let (text, rest) ← multilineBody quote escapes fuel rest
          return (c :: text, rest)
        else none

/-- A line end directly behind the opening quotes does not belong to the text. -/
def multiline (quote : Char) (escapes : Bool) : Reader (List Char) := fun cs =>
  let cs := (newline? cs).getD cs
  multilineBody quote escapes (cs.length + 1) cs

def quoted : Reader String := fun cs =>
  let body : Option (List Char × List Char) :=
    match cs with
    | '"' :: '"' :: '"' :: rest => multiline '"' true rest
    | '"' :: rest => basicBody (rest.length + 1) rest
    | '\'' :: '\'' :: '\'' :: rest => multiline '\'' false rest
    | '\'' :: rest => literalBody rest
    | _ => none
  body.map fun (text, rest) => (String.ofList text, rest)

/-! ### Keys -/

def isKeyChar (c : Char) : Bool := Text.isAsciiAlphanumeric c || c == '-' || c == '_'

def simpleKey : Reader String
  | '"' :: rest => (basicBody (rest.length + 1) rest).map fun (k, rest) => (String.ofList k, rest)
  | '\'' :: rest => (literalBody rest).map fun (k, rest) => (String.ofList k, rest)
  | cs =>
    match cs.takeWhile isKeyChar with
    | [] => none
    | k => some (String.ofList k, cs.dropWhile isKeyChar)

/-- Keys nested deeper than this are refused, and so are values. -/
def nestingLimit : Nat := 80

def dottedKey : (fuel : Nat) → Reader (List String)
  | 0, _ => none
  | fuel + 1, cs => do
    let (first, rest) ← simpleKey (skipSpaces cs)
    match skipSpaces rest with
    | '.' :: rest =>
      let (more, rest) ← dottedKey fuel rest
      return (first :: more, rest)
    | rest => return ([first], rest)

/-- A key with dots, as the list of its parts. -/
def key : Reader (List String) := dottedKey (nestingLimit - 1)

end SuiteRunner.Toml
