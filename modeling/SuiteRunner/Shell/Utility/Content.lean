import SuiteRunner.Pattern.Parser
import SuiteRunner.Shell.Format

/-!
# Utilities that work on contents
-/

namespace SuiteRunner.Shell

def cat (call : Call) : Answer :=
  eachContent "cat" call (options call.arguments).2 fun _ content => content

/-- A basic pattern, written as an extended one. -/
def extendedPattern (text : List Char) : List Char :=
  match text with
  | '\\' :: c :: rest =>
    if c = '(' || c = ')' || c = '\x7b' || c = '\x7d' || c = '|' || c = '+' || c = '?' then
      c :: extendedPattern rest
    else '\\' :: c :: extendedPattern rest
  | c :: rest =>
    if c = '(' || c = ')' || c = '\x7b' || c = '\x7d' || c = '|' || c = '+' || c = '?' then
      '\\' :: c :: extendedPattern rest
    else c :: extendedPattern rest
  | [] => []

/-- Whether a line is selected, given the letters of the options. -/
def lineSelector? (letters : List Char) (pattern : String) : Option (String → Bool) :=
  let lower (text : String) := if letters.contains 'i' then text.toLower else text
  if letters.contains 'F' then
    some fun line =>
      if letters.contains 'x' then lower line == lower pattern
      else Text.occursIn (lower pattern).toList (lower line).toList
  else
    let text :=
      if letters.contains 'E' then pattern.toList else extendedPattern pattern.toList
    let text := if letters.contains 'x' then "^(?:".toList ++ text ++ ")$".toList else text
    let text := if letters.contains 'w' then "\\b(?:".toList ++ text ++ ")\\b".toList else text
    let text := if letters.contains 'i' then "(?i)".toList ++ text else text
    (Pattern.Node.parse (String.ofList text)).map fun node line => node.occursIn line

def grep (call : Call) : Answer :=
  let (explicit, arguments) := valueOf 'e' call.arguments
  let (letters, operands) := options arguments
  let (pattern, operands) := match explicit with
    | some pattern => (pattern, operands)
    | none => (operands.head?.getD "", operands.drop 1)
  match lineSelector? letters pattern with
  | none => call.complain "grep: Invalid regular expression" 2
  | some selects =>
    let inverted := letters.contains 'v'
    let chosen (content : ByteArray) : List (Nat × String) :=
      (linesOf content).zipIdx.filterMap fun (line, index) =>
        if selects line != inverted then some (index + 1, line) else none
    let start (name : String) : String := if operands.length > 1 then name ++ ":" else ""
    let answer := eachContent "grep" call operands fun name content =>
      let lines := chosen content
      if letters.contains 'q' then .empty
      else if letters.contains 'l' then (if lines.isEmpty then .empty else Text.toBytes (name ++ "\n"))
      else if letters.contains 'c' then
        Text.toBytes (start name ++ toString lines.length ++ "\n")
      else unlines (lines.map fun (number, line) =>
        start name ++ (if letters.contains 'n' then toString number ++ ":" else "") ++ line)
    let found := (contents call operands).any fun (_, content) =>
      content.toOption.any fun content => !(chosen content).isEmpty
    let status := if found && (answer.status == 0 || letters.contains 'q') then 0
      else if answer.status == 0 then 1 else 2
    { answer with
      errors := if letters.contains 's' then "" else answer.errors
      status }

/-- How much of a content is wanted: lines or bytes, and how many. -/
def amount (arguments : List String) : (Bool × Nat) × List String :=
  let (bytes, arguments) := valueOf 'c' arguments
  match bytes with
  | some count => ((true, ((integer? count).getD 0).natAbs), arguments)
  | none =>
    let (lines, arguments) := valueOf 'n' arguments
    match lines with
    | some count => ((false, ((integer? count).getD 10).natAbs), arguments)
    | none =>
      match arguments with
      | argument :: rest =>
        match argument.toList with
        | '-' :: digits =>
          match (String.ofList digits).toNat? with
          | some count => ((false, count), rest)
          | none => ((false, 10), arguments)
        | _ => ((false, 10), arguments)
      | [] => ((false, 10), [])

/-- Where the lines of a content end, taken from a place on. -/
def endOfLines (content : ByteArray) : (count start : Nat) → Nat
  | 0, start => start
  | count + 1, start =>
    match content.findIdx? (· == 10) start with
    | some index => endOfLines content count (index + 1)
    | none => content.size

def head (call : Call) : Answer :=
  let ((inBytes, count), operands) := amount call.arguments
  if inBytes && operands == [zeroDevice] then call.answer ⟨Array.replicate count 0⟩ 0
  else
    eachContent "head" call operands fun _ content =>
      content.extract 0 (if inBytes then count else endOfLines content count 0)

def tail (call : Call) : Answer :=
  let ((inBytes, count), operands) := amount call.arguments
  eachContent "tail" call operands fun _ content =>
    if inBytes then content.extract (content.size - count) content.size
    else
      let lines := linesOf content
      unlines (lines.drop (lines.length - count))

def wc (call : Call) : Answer :=
  let (letters, operands) := options call.arguments
  eachContent "wc" call operands fun name content =>
    let lines := content.data.count 10
    let words := ((Text.ofBytes content).split Char.isWhitespace).toList.filter (!·.isEmpty)
    let counts := [('l', lines), ('w', words.length), ('c', content.size)].filter fun (letter, _) =>
      letters.isEmpty || letters.contains letter
    let texts := counts.map fun (_, count) => toString count
    Text.toBytes
      (" ".intercalate texts ++ (if operands.isEmpty then "" else " " ++ name) ++ "\n")

/-- The bytes that a set of `tr` lists. -/
def listedBytes (fuel : Nat) (text : List Char) : List UInt8 :=
  match fuel with
  | 0 => []
  | fuel + 1 =>
    let between (first last : Char) : List UInt8 :=
      (List.range (last.toNat + 1 - first.toNat)).map fun n => UInt8.ofNat (first.toNat + n)
    match text with
    | [] => []
    | '[' :: ':' :: rest =>
      let name := String.ofList (rest.takeWhile (· != ':'))
      match Pattern.CharSet.ofName? name with
      | some set =>
        ((List.range 128).filter fun n => set.contains (Char.ofNat n)).map UInt8.ofNat ++
          listedBytes fuel (rest.drop (name.length + 2))
      | none => charBytes '[' ++ listedBytes fuel (':' :: rest)
    | '\\' :: rest =>
      let length := 1 + max 1 (octalDigits 3 rest).length
      (unescape false (length + 1) (text.take length)).1 ++ listedBytes fuel (text.drop length)
    | first :: '-' :: last :: rest => between first last ++ listedBytes fuel rest
    | c :: rest => charBytes c ++ listedBytes fuel rest

/-- Drop each byte of a set that follows an equal one. -/
def squeeze (set : List UInt8) : Option UInt8 → List UInt8 → List UInt8
  | _, [] => []
  | before, byte :: bytes =>
    if before = some byte && set.contains byte then squeeze set before bytes
    else byte :: squeeze set (some byte) bytes

def tr (call : Call) : Answer :=
  let (letters, operands) := options call.arguments
  let sets := operands.map fun text => listedBytes (text.length + 1) text.toList
  let listed := sets.head?.getD []
  let source : List UInt8 :=
    if letters.contains 'c' || letters.contains 'C' then
      ((List.range 256).map UInt8.ofNat).filter (!listed.contains ·)
    else listed
  let target := (sets.drop 1).head?.getD []
  let changed := if letters.contains 'd' then
      call.input.data.filter (!source.contains ·)
    else if target.isEmpty then call.input.data
    else
      let table : Array UInt8 := ((List.range 256).map fun n =>
        let byte := UInt8.ofNat n
        match source.findIdx? (· == byte) with
        | some index => (target[index]?.orElse fun _ => target.getLast?).getD byte
        | none => byte).toArray
      call.input.data.map fun byte => (table[byte.toNat]?).getD byte
  if letters.contains 's' then
    let set := (sets.getLast?).getD []
    call.answer ⟨(squeeze set none changed.toList).toArray⟩ 0
  else call.answer ⟨changed⟩ 0

def sort (call : Call) : Answer :=
  let (letters, operands) := options call.arguments
  let answer := eachContent "sort" call operands fun _ content => unlines (linesOf content)
  let value (line : String) : Int :=
    (integer? (String.ofList (line.toList.takeWhile fun c => c.isDigit || c == '-'))).getD 0
  let before (a b : String) : Bool :=
    if letters.contains 'n' then value a < value b || (value a == value b && a ≤ b) else a ≤ b
  let lines := (linesOf answer.output).mergeSort before
  let lines := if letters.contains 'u' then lines.eraseDups else lines
  { answer with output := unlines (if letters.contains 'r' then lines.reverse else lines) }

/-- Group equal neighbours. -/
def runs : List String → List (String × Nat)
  | [] => []
  | line :: lines =>
    match runs lines with
    | (next, count) :: others =>
      if next == line then (line, count + 1) :: others else (line, 1) :: (next, count) :: others
    | [] => [(line, 1)]

def uniq (call : Call) : Answer :=
  let (letters, operands) := options call.arguments
  eachContent "uniq" call (operands.take 1) fun _ content =>
    unlines ((runs (linesOf content)).map fun (line, count) =>
      if letters.contains 'c' then ({ width := 7 : Column }).pad (toString count) ++ " " ++ line
      else line)

def seq (call : Call) : Answer :=
  match call.arguments.mapM integer? with
  | some bounds =>
    let (first, step, last) : Int × Int × Int := match bounds with
      | [last] => (1, 1, last)
      | [first, last] => (first, 1, last)
      | [first, step, last] => (first, step, last)
      | _ => (1, 1, 0)
    let count := if step > 0 then ((last - first) / step + 1).toNat
      else if step < 0 then ((first - last) / (-step) + 1).toNat else 0
    let values := (List.range count).map fun (n : Nat) => toString (first + (n : Int) * step)
    call.answer (unlines values) 0
  | none => call.complain "seq: invalid argument" 1

/-- A number of bytes, perhaps with the letter of a unit. -/
def byteCount? (text : String) : Option Nat :=
  let digits := String.ofList (text.toList.takeWhile Char.isDigit)
  let unit : Option Nat := match text.toList.dropWhile Char.isDigit with
    | [] | ['c'] => some 1
    | ['k'] | ['K'] => some 1024
    | ['M'] => some (1024 * 1024)
    | ['b'] => some 512
    | _ => none
  return (← digits.toNat?) * (← unit)

/-- Copy whole blocks. What is said of the records goes to the errors. -/
def dd (call : Call) : Answer :=
  let value? (key : String) : Option String := call.arguments.findSome? fun argument =>
    (Text.after? (key ++ "=").toList argument.toList).map String.ofList
  let size := ((value? "bs").bind byteCount?).getD 512
  match (match value? "if" with
    | some name => (contentOf call.tree name).mapError fun cause => (name, cause)
    | none => .ok call.input) with
  | .error (name, cause) =>
    call.complain ("dd: failed to open " ++ quotedName name ++ ": " ++ reason cause) 1
  | .ok content =>
    let copied := match (value? "count").bind byteCount? with
      | some count => content.extract 0 (size * count)
      | none => content
    let records := toString (copied.size / size) ++ "+" ++
      (if copied.size % size = 0 then "0" else "1") ++ " records "
    let errors := if value? "status" == some "none" then ""
      else records ++ "in\n" ++ records ++ "out\n"
    match value? "of" with
    | none => { call.answer copied 0 with errors }
    | some name =>
      match call.tree.write ⟨name⟩ copied with
      | .ok tree => { tree, errors }
      | .error cause =>
        call.complain ("dd: failed to open " ++ quotedName name ++ ": " ++ reason cause) 1

def basename (call : Call) : Answer :=
  match call.arguments with
  | name :: rest =>
    let base := ((Path.mk name).fileName?).getD name
    let suffix := rest.head?.getD ""
    let base := if suffix != "" && base != suffix && base.endsWith suffix then
        String.ofList (base.toList.take (base.length - suffix.length)) else base
    call.print (base ++ "\n") 0
  | [] => call.complain "basename: missing operand" 1

def dirname (call : Call) : Answer :=
  let parent (name : String) : String :=
    let path : Path := ⟨name⟩
    match path.parent? with
    | some ⟨""⟩ => "."
    | some parent => parent.text
    | none => if path.isAbsolute then "/" else "."
  call.answer (unlines (call.arguments.map parent)) 0

end SuiteRunner.Shell
