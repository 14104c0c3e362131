import SuiteRunner.Shell.Utility.Basic

/-!
# Printing with escapes and formats

What `echo` and `printf` print: words with escapes, and formats that are repeated until
there are no arguments left.
-/

namespace SuiteRunner.Shell

/-! ### Escapes -/

def octalDigits (limit : Nat) (text : List Char) : List Char :=
  (text.take limit).takeWhile fun c => '0' ≤ c && c ≤ '7'

def octalValue (digits : List Char) : UInt8 :=
  UInt8.ofNat (digits.foldl (fun value c => value * 8 + (c.toNat - '0'.toNat)) 0)

/-- The byte that a letter behind a backslash stands for. -/
def escapedByte? : Char → Option UInt8
  | 'a' => some 7
  | 'b' => some 8
  | 'f' => some 12
  | 'n' => some 10
  | 'r' => some 13
  | 't' => some 9
  | 'v' => some 11
  | '\\' => some 92
  | '"' => some 34
  | _ => none

def charBytes (c : Char) : List UInt8 := [UInt8.ofNat c.toNat]

def textBytes (text : String) : List UInt8 := text.toList.flatMap charBytes

/-- Bytes written with escapes. An octal escape has up to three digits, behind a zero that is
due if `zero` says so; the second part is whether output stops here for good. -/
def unescape (zero : Bool) (fuel : Nat) (text : List Char) : List UInt8 × Bool :=
  match fuel with
  | 0 => ([], false)
  | fuel + 1 =>
    let more (bytes : List UInt8) (rest : List Char) : List UInt8 × Bool :=
      let (others, stops) := unescape zero fuel rest
      (bytes ++ others, stops)
    match text with
    | [] => ([], false)
    | '\\' :: 'c' :: rest =>
      if zero then ([], true) else more (charBytes '\\' ++ charBytes 'c') rest
    | '\\' :: c :: rest =>
      let digits :=
        if zero then (if c = '0' then octalDigits 3 rest else [])
        else octalDigits 3 (c :: rest)
      if zero && c = '0' then more [octalValue digits] (rest.drop digits.length)
      else if !zero && !digits.isEmpty then
        more [octalValue digits] ((c :: rest).drop digits.length)
      else
        match escapedByte? c with
        | some byte => more [byte] rest
        | none => more (charBytes '\\' ++ charBytes c) rest
    | c :: rest => more (charBytes c) rest

def bytesOf (bytes : List UInt8) : ByteArray := ⟨bytes.toArray⟩

/-- What `echo` prints. -/
def echo (arguments : List String) : ByteArray :=
  let (silent, words) := match arguments with
    | "-n" :: words => (true, words)
    | words => (false, words)
  let text := " ".intercalate words
  let (bytes, stops) := unescape true (text.length + 1) text.toList
  bytesOf (if silent || stops then bytes else bytes ++ [10])

/-- What `echo` prints when it is a program of its own: only the option `-e` asks for escapes. -/
def plainEcho (arguments : List String) : ByteArray :=
  let isLetters (argument : String) : Bool :=
    isOption argument && (argument.toList.drop 1).all fun c => c == 'n' || c == 'e' || c == 'E'
  let letters := ((arguments.takeWhile isLetters).flatMap (·.toList.drop 1))
  let text := " ".intercalate (arguments.dropWhile isLetters)
  let escapes := (letters.filter (· != 'n')).getLast? == some 'e'
  let (bytes, stops) :=
    if escapes then unescape true (text.length + 1) text.toList else (textBytes text, false)
  bytesOf (if letters.contains 'n' || stops then bytes else bytes ++ [10])

/-- How a value is set in a column. -/
structure Column where
  left : Bool := false
  zeros : Bool := false
  plus : Bool := false
  width : Nat := 0
  precision : Option Nat := none

def Column.pad (column : Column) (text : String) : String :=
  let missing := column.width - text.length
  if column.left then text ++ "".pushn ' ' missing else "".pushn ' ' missing ++ text

def Column.number (column : Column) (negative : Bool) (digits : String) : String :=
  let sign := if negative then "-" else if column.plus then "+" else ""
  let digits := match column.precision with
    | some precision => "".pushn '0' (precision - digits.length) ++ digits
    | none => digits
  if column.zeros && !column.left && column.precision.isNone then
    sign ++ "".pushn '0' (column.width - sign.length - digits.length) ++ digits
  else column.pad (sign ++ digits)

/-- Read a column behind a percent sign. -/
def column (text : List Char) : Column × List Char :=
  let isFlag (c : Char) : Bool := c == '-' || c == '0' || c == '+' || c == ' ' || c == '#'
  let flags := text.takeWhile isFlag
  let text := text.drop flags.length
  let digits := text.takeWhile Char.isDigit
  let text := text.drop digits.length
  let width := ((String.ofList digits).toNat?).getD 0
  let (precision, text) := match text with
    | '.' :: rest =>
      let digits := rest.takeWhile Char.isDigit
      (some (((String.ofList digits).toNat?).getD 0), rest.drop digits.length)
    | text => (none, text)
  ({ left := flags.contains '-', zeros := flags.contains '0', plus := flags.contains '+', width,
     precision }, text)

/-- The bytes of one conversion. -/
def convert (column : Column) (kind : Char) (argument : String) : List UInt8 :=
  let number := (integer? argument).getD 0
  let inBase (base : Nat) (upper : Bool) : String :=
    let digits := String.ofList (Nat.toDigits base number.toNat)
    if upper then digits.toUpper else digits
  match kind with
  | 's' =>
    let text := match column.precision with
      | some precision => String.ofList (argument.toList.take precision)
      | none => argument
    textBytes (column.pad text)
  | 'b' => (unescape true (argument.length + 1) argument.toList).1
  | 'c' => textBytes (column.pad (String.ofList (argument.toList.take 1)))
  | 'd' | 'i' | 'u' =>
    textBytes (column.number (number < 0) (toString number.natAbs))
  | 'x' => textBytes (column.number false (inBase 16 false))
  | 'X' => textBytes (column.number false (inBase 16 true))
  | 'o' => textBytes (column.number false (inBase 8 false))
  | kind => charBytes '%' ++ charBytes kind

/-- Print a format once; what is left of the arguments comes with it. -/
def formatOnce (fuel : Nat) (text : List Char) (arguments : List String) :
    List UInt8 × List String :=
  match fuel with
  | 0 => ([], arguments)
  | fuel + 1 =>
    let more (bytes : List UInt8) (rest : List Char) (arguments : List String) :=
      let (others, arguments) := formatOnce fuel rest arguments
      (bytes ++ others, arguments)
    match text with
    | [] => ([], arguments)
    | '%' :: '%' :: rest => more (charBytes '%') rest arguments
    | '%' :: rest =>
      match column rest with
      | (column, kind :: rest) =>
        more (convert column kind (arguments.head?.getD "")) rest (arguments.drop 1)
      | (_, []) => (charBytes '%', arguments)
    | '\\' :: rest =>
      let length := 1 + max 1 (octalDigits 3 rest).length
      more (unescape false (length + 1) (text.take length)).1 (text.drop length) arguments
    | c :: rest => more (charBytes c) rest arguments

/-- Print a format until there are no arguments left. -/
def format (fuel : Nat) (text : List Char) (arguments : List String) : List UInt8 :=
  match fuel with
  | 0 => []
  | fuel + 1 =>
    let (bytes, rest) := formatOnce (text.length + 1) text arguments
    if rest.isEmpty || rest.length == arguments.length then bytes
    else bytes ++ format fuel text rest

def printf (arguments : List String) : ByteArray :=
  let arguments := match arguments with
    | "--" :: rest => rest
    | arguments => arguments
  match arguments with
  | [] => .empty
  | text :: arguments => bytesOf (format (arguments.length + 1) text.toList arguments)

end SuiteRunner.Shell
