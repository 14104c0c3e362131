import SuiteRunner.Pattern.Basic

/-!
# Reading patterns

Literal characters, `.`, bracketed sets with ranges, nested and named sets and set
operations, `\d`, `\s`, `\w` and their complements, anchors and word boundaries, groups,
alternatives, repetitions, and flags inside the pattern. Looking around, referring back
and everything else that is not one of these makes a text no pattern.
-/

namespace SuiteRunner.Pattern

structure Flags where
  anyCase : Bool := false
  /-- Whether anchors hold at line ends too. -/
  multiline : Bool := false
  /-- Whether the dot matches a line feed too. -/
  dotMatchesAll : Bool := false
  /-- Whether blanks and comments in the pattern are passed over. -/
  ignoresBlanks : Bool := false
  deriving DecidableEq, Repr

/-- What reading has come across so far. -/
structure Context where
  flags : Flags := {}
  groupNames : List String := []
  deriving Repr

def Flags.set (flags : Flags) (set : CharSet) : CharSet :=
  if flags.anyCase then .anyCase set else set

/-! ### Escapes -/

inductive Escape where
  | char (c : Char)
  | set (set : CharSet)
  | place (place : Place)
  deriving Repr

def hexValue? (c : Char) : Option Nat :=
  if '0' ≤ c && c ≤ '9' then some (c.toNat - '0'.toNat)
  else if 'a' ≤ c && c ≤ 'f' then some (c.toNat - 'a'.toNat + 10)
  else if 'A' ≤ c && c ≤ 'F' then some (c.toNat - 'A'.toNat + 10)
  else none

/-- The character with a code point in hexadecimal digits. -/
def hexChar? (digits : List Char) : Option Char :=
  if digits.isEmpty then none
  else do
    let code ← digits.foldlM (fun code c => do return code * 16 + (← hexValue? c)) 0
    if h : code.isValidChar then some (Char.ofNatAux code h) else none

/-- A code point in braces, or in exactly `count` digits. -/
def hexEscape? (count : Nat) (text : List Char) : Option (Escape × List Char) :=
  match text with
  | '\x7b' :: rest =>
    let digits := rest.takeWhile (· != '\x7d')
    match rest.drop digits.length with
    | _ :: rest => (hexChar? digits).map fun c => (.char c, rest)
    | [] => none
  | text =>
    if (text.take count).length = count then
      (hexChar? (text.take count)).map fun c => (.char c, text.drop count)
    else none

/-- The sets that have a letter. -/
def letterSet? : Char → Option CharSet
  | 'd' => some .digit
  | 's' => some .blank
  | 'w' => some .word
  | 'D' => some (.complement .digit)
  | 'S' => some (.complement .blank)
  | 'W' => some (.complement .word)
  | _ => none

def letterPlace? : Char → Option Place
  | 'A' => some .textStart
  | 'z' => some .textEnd
  | 'b' => some .wordBoundary
  | 'B' => some .insideOrOutsideWord
  | '<' => some .wordStart
  | '>' => some .wordEnd
  | _ => none

def letterChar? : Char → Option Char
  | 'a' => some '\x07'
  | 'f' => some '\x0c'
  | 't' => some '\t'
  | 'n' => some '\n'
  | 'r' => some '\r'
  | 'v' => some '\x0b'
  | _ => none

/-- Any ASCII character but a letter or digit stands for itself behind a backslash. -/
def standsForItself (c : Char) : Bool := c.toNat < 0x80 && !Text.isAsciiAlphanumeric c

/-- Read what follows a backslash. -/
def escape? : List Char → Option (Escape × List Char)
  | [] => none
  | 'x' :: rest => hexEscape? 2 rest
  | 'u' :: rest => hexEscape? 4 rest
  | 'U' :: rest => hexEscape? 8 rest
  | c :: rest =>
    match letterSet? c, letterPlace? c, letterChar? c with
    | some set, _, _ => some (.set set, rest)
    | _, some place, _ => some (.place place, rest)
    | _, _, some char => some (.char char, rest)
    | _, _, _ => if standsForItself c then some (.char c, rest) else none

/-! ### Bracketed sets -/

inductive SetOperation where
  | both
  | without
  | exactlyOne
  deriving Repr

def SetOperation.combine (operation : SetOperation) (a b : CharSet) : CharSet :=
  match operation with
  | both => .intersection a b
  | without => .difference a b
  | exactlyOne => .symmetricDifference a b

/-- A set whose left operand is read already, or has none. -/
def joinOperand (flags : Flags) (left : Option (CharSet × SetOperation)) (set : CharSet) :
    CharSet :=
  match left with
  | none => set
  | some (left, operation) => operation.combine (flags.set left) (flags.set set)

/-- Read a set that is written by name between colons, behind its opening bracket. -/
def namedSet? (text : List Char) : Option (CharSet × List Char) :=
  match text with
  | ':' :: rest =>
    let (negated, rest) := match rest with
      | '^' :: rest => (true, rest)
      | rest => (false, rest)
    let name := rest.takeWhile (· != ':')
    match rest.drop name.length, CharSet.ofName? (String.ofList name) with
    | ':' :: ']' :: rest, some set => some (if negated then .complement set else set, rest)
    | _, _ => none
  | _ => none

/-- One character or escape of a bracketed set. -/
def setItem? : List Char → Option (Escape × List Char)
  | [] => none
  | '\\' :: rest =>
    match escape? rest with
    | some (.place _, _) => none
    | read => read
  | c :: rest => some (.char c, rest)

def Escape.toSet : Escape → CharSet
  | char c => .single c
  | set members => members
  | place _ => .nothing

/-- A range, or one item of a bracketed set. -/
def setRange? (text : List Char) : Option (CharSet × List Char) := do
  let (first, rest) ← setItem? text
  match rest with
  | [] => none
  | '-' :: ']' :: _ | '-' :: '-' :: _ => return (first.toSet, rest)
  | '-' :: rest =>
    match first, ← setItem? rest with
    | .char first, (.char last, rest) =>
      if first ≤ last then return (.range first last, rest) else none
    | _, _ => none
  | rest => return (first.toSet, rest)

/-- The dashes at the beginning of a bracketed set stand for themselves, and so does a closing
bracket in the place of the first item. -/
def setStart (text : List Char) : CharSet × List Char :=
  let dashes := text.takeWhile (· == '-')
  match dashes, text.drop dashes.length with
  | [], ']' :: rest => (.single ']', rest)
  | [], rest => (.nothing, rest)
  | _, rest => (.single '-', rest)

mutual

/-- Read a set behind its opening bracket. -/
def bracketed? (flags : Flags) : (fuel : Nat) → List Char → Option (CharSet × List Char)
  | 0, _ => none
  | fuel + 1, text => do
    let (negated, text) := match text with
      | '^' :: text => (true, text)
      | text => (false, text)
    let (set, text) := setStart text
    let (set, rest) ← setItems? flags fuel none set text
    let set := flags.set set
    return (if negated then .complement set else set, rest)

/-- Read on in a set, up to its closing bracket. -/
def setItems? (flags : Flags) (fuel : Nat) (left : Option (CharSet × SetOperation))
    (set : CharSet) (text : List Char) : Option (CharSet × List Char) :=
  match fuel with
  | 0 => none
  | fuel + 1 =>
    let operand (operation : SetOperation) := some (joinOperand flags left set, operation)
    match text with
    | [] => none
    | ']' :: rest => some (joinOperand flags left set, rest)
    | '&' :: '&' :: rest => setItems? flags fuel (operand .both) .nothing rest
    | '-' :: '-' :: rest => setItems? flags fuel (operand .without) .nothing rest
    | '~' :: '~' :: rest => setItems? flags fuel (operand .exactlyOne) .nothing rest
    | '[' :: rest =>
      match namedSet? rest with
      | some (named, rest) => setItems? flags fuel left (.union set named) rest
      | none => do
        let (inner, rest) ← bracketed? flags fuel rest
        setItems? flags fuel left (.union set inner) rest
    | text => do
      let (item, rest) ← setRange? text
      setItems? flags fuel left (.union set item) rest

end

/-! ### Repetitions -/

/-- The largest count that a repetition can have. -/
def countLimit : Nat := Nat.pow 2 32

/-- Read a count, with blanks around it. -/
def count? (text : List Char) : Option (Nat × List Char) := do
  let text := text.dropWhile Text.isBlank
  let digits := text.takeWhile Char.isDigit
  if digits.isEmpty then none
  let count := digits.foldl (fun count c => count * 10 + (c.toNat - '0'.toNat)) 0
  if count < countLimit then return (count, (text.drop digits.length).dropWhile Text.isBlank)
  else none

/-- Read how often something is repeated, behind the opening brace. -/
def bounds? (text : List Char) : Option ((Nat × Option Nat) × List Char) := do
  let (least, rest) ← count? text
  match rest with
  | '\x7d' :: rest => return ((least, some least), rest)
  | ',' :: rest =>
    match rest.dropWhile Text.isBlank with
    | '\x7d' :: rest => return ((least, none), rest)
    | rest =>
      let (most, rest) ← count? rest
      match rest with
      | '\x7d' :: rest => if least ≤ most then return ((least, some most), rest) else none
      | _ => none
  | _ => none

/-- Read a repetition, if there is one here; `some none` says that it is malformed. -/
def repetition? : List Char → Option (Option ((Nat × Option Nat) × List Char))
  | '*' :: rest => some (some ((0, none), rest))
  | '+' :: rest => some (some ((1, none), rest))
  | '?' :: rest => some (some ((0, some 1), rest))
  | '\x7b' :: rest => some (bounds? rest)
  | _ => none

/-- Whether a repetition prefers few or many makes no difference to where it can end. -/
def dropPreference : List Char → List Char
  | '?' :: rest => rest
  | rest => rest

/-! ### Groups -/

def Flags.turn (flags : Flags) (letter : Char) (on : Bool) : Option Flags :=
  match letter with
  | 'i' => some { flags with anyCase := on }
  | 'm' => some { flags with multiline := on }
  | 's' => some { flags with dotMatchesAll := on }
  | 'x' => some { flags with ignoresBlanks := on }
  | 'U' | 'u' | 'R' => some flags
  | _ => none

/-- Read flags; `seen` are the letters read so far, a dash among them if there was one. -/
def flags? (flags : Flags) (seen : List Char) : List Char → Option (Flags × List Char)
  | [] => none
  | ':' :: rest => if seen.head? = some '-' then none else some (flags, ':' :: rest)
  | ')' :: rest =>
    if seen.isEmpty || seen.head? = some '-' then none else some (flags, ')' :: rest)
  | c :: rest => do
    if seen.contains c then none
    else if c = '-' then flags? flags (c :: seen) rest
    else flags? (← flags.turn c !(seen.contains '-')) (c :: seen) rest

/-- The characters of a group's name; the first of them can be no digit. -/
def isNameChar (first : Bool) (c : Char) : Bool :=
  c == '_' || (isWord c && !(first && isDigit c)) || (!first && (c == '.' || c == '[' || c == ']'))

def groupName? (context : Context) (text : List Char) : Option (Context × List Char) :=
  let name := text.takeWhile (· != '>')
  match name, text.drop name.length with
  | c :: cs, _ :: rest =>
    let known := context.groupNames
    if isNameChar true c && cs.all (isNameChar false) && !known.contains (String.ofList name) then
      some ({ context with groupNames := String.ofList name :: known }, rest)
    else none
  | _, _ => none

/-- What stands behind an opening parenthesis. -/
inductive GroupStart where
  /-- A group, and the context inside it. -/
  | group (inside : Context) (rest : List Char)
  /-- Flags for what follows. -/
  | flags (behind : Context) (rest : List Char)

def groupStart? (context : Context) : List Char → Option GroupStart
  | '?' :: 'P' :: '<' :: rest =>
    (groupName? context rest).map fun (inside, rest) => .group inside rest
  | '?' :: '<' :: '=' :: _ | '?' :: '<' :: '!' :: _ => none
  | '?' :: '<' :: rest => (groupName? context rest).map fun (inside, rest) => .group inside rest
  | '?' :: rest =>
    match flags? context.flags [] rest with
    | some (flags, ':' :: rest) => some (.group { context with flags } rest)
    | some (flags, ')' :: rest) => some (.flags { context with flags } rest)
    | _ => none
  | rest => some (.group context rest)

/-! ### Whole patterns -/

/-- What has been read of a sequence, the latest first. Flags leave nothing to repeat. -/
abbrev Sequence : Type := List (Option Node)

def Sequence.node (sequence : Sequence) : Node :=
  (sequence.reverse.filterMap id).foldr .both .empty

def Escape.node (flags : Flags) : Escape → Node
  | char c => .one (flags.set (.single c))
  | set members => .one members
  | place condition => .place condition

def dot (flags : Flags) : CharSet :=
  if flags.dotMatchesAll then .complement .nothing else .complement (.single '\n')

mutual

/-- Read alternatives, up to a closing parenthesis or the end. -/
def alternatives? : (fuel : Nat) → Context → List Char → Option (Node × Context × List Char)
  | 0, _, _ => none
  | fuel + 1, context, text => do
    let (first, context, rest) ← sequence? fuel context [] text
    match rest with
    | '|' :: rest =>
      let (others, context, rest) ← alternatives? fuel context rest
      return (.either first others, context, rest)
    | rest => return (first, context, rest)

/-- Read on in a sequence of which `read` has been read. -/
def sequence? (fuel : Nat) (context : Context) (read : Sequence) (text : List Char) :
    Option (Node × Context × List Char) :=
  match fuel with
  | 0 => none
  | fuel + 1 =>
    let flags := context.flags
    match repetition? text with
    | some none => none
    | some (some ((least, most), rest)) =>
      match read with
      | some node :: read =>
        sequence? fuel context (some (.repeated node least most) :: read) (dropPreference rest)
      | _ => none
    | none =>
      match text with
      | [] => some (read.node, context, [])
      | '|' :: _ | ')' :: _ => some (read.node, context, text)
      | '(' :: rest => do
        match ← groupStart? context rest with
        | .flags context rest => sequence? fuel context (none :: read) rest
        | .group inside rest =>
          match ← alternatives? fuel inside rest with
          | (node, inside, ')' :: rest) =>
            let context := { context with groupNames := inside.groupNames }
            sequence? fuel context (some node :: read) rest
          | _ => none
      | '[' :: rest => do
        let (set, rest) ← bracketed? flags fuel rest
        sequence? fuel context (some (.one set) :: read) rest
      | '\\' :: rest => do
        let (escape, rest) ← escape? rest
        sequence? fuel context (some (escape.node flags) :: read) rest
      | '.' :: rest => sequence? fuel context (some (.one (dot flags)) :: read) rest
      | '^' :: rest =>
        let place : Place := if flags.multiline then .lineStart else .textStart
        sequence? fuel context (some (.place place) :: read) rest
      | '$' :: rest =>
        let place : Place := if flags.multiline then .lineEnd else .textEnd
        sequence? fuel context (some (.place place) :: read) rest
      | c :: rest =>
        if flags.ignoresBlanks && Text.isBlank c then sequence? fuel context read rest
        else if flags.ignoresBlanks && c == '#' then
          sequence? fuel context read (rest.dropWhile (· != '\n'))
        else sequence? fuel context (some ((Escape.char c).node flags) :: read) rest

end

/-- Read a pattern. No step reads nothing more than once, which bounds the number of steps. -/
def Node.parse (text : String) : Option Node :=
  match alternatives? (2 * text.length + 4) {} text.toList with
  | some (node, _, []) => some node
  | _ => none

end SuiteRunner.Pattern
