import SuiteRunner.Json.Basic

/-!
# Reading JSON text

The characters of a text fall into tokens, with blanks between them. A machine with a
stack of unfinished arrays and objects then takes one token after the other, until one
whole value has been read and nothing is left. Numbers are whole numbers; a fraction or an
exponent is refused, as is everything else that has no place in a JSON text: raw control
characters, unknown escapes, halves of surrogate pairs, superfluous zeros and commas.
-/

namespace SuiteRunner.Json

/-! ### Strings -/

/-- What stands in front of the closing quote, still escaped, and what follows the quote. -/
def upToQuote? : List Char → Option (List Char × List Char)
  | [] => none
  | '"' :: rest => some ([], rest)
  | '\\' :: c :: rest => (upToQuote? rest).map fun (body, after) => ('\\' :: c :: body, after)
  | c :: rest => (upToQuote? rest).map fun (body, after) => (c :: body, after)

def hexValue? (c : Char) : Option Nat :=
  if '0' ≤ c ∧ c ≤ '9' then some (c.toNat - '0'.toNat)
  else if 'a' ≤ c ∧ c ≤ 'f' then some (c.toNat - 'a'.toNat + 10)
  else if 'A' ≤ c ∧ c ≤ 'F' then some (c.toNat - 'A'.toNat + 10)
  else none

/-- The number that hexadecimal digits stand for. -/
def codeUnit? (digits : List Char) : Option Nat :=
  digits.foldlM (fun value c => (16 * value + ·) <$> hexValue? c) 0

def isHighSurrogate (unit : Nat) : Bool := 0xD800 ≤ unit && unit < 0xDC00

def isLowSurrogate (unit : Nat) : Bool := 0xDC00 ≤ unit && unit < 0xE000

/-- The character that an escape of one letter stands for. -/
def shortEscape? : Char → Option Char
  | '"' => some '"'
  | '\\' => some '\\'
  | '/' => some '/'
  | 'b' => some '\x08'
  | 'f' => some '\x0c'
  | 'n' => some '\n'
  | 'r' => some '\r'
  | 't' => some '\t'
  | _ => none

/-- The text that was escaped. A character beyond the first 65536 may be given by two
surrogates in a row. -/
def unescape? : List Char → Option (List Char)
  | [] => some []
  | '\\' :: 'u' :: a :: b :: c :: d :: rest => do
    let unit ← codeUnit? [a, b, c, d]
    if isHighSurrogate unit then
      match rest with
      | '\\' :: 'u' :: a :: b :: c :: d :: rest => do
        let low ← codeUnit? [a, b, c, d]
        if isLowSurrogate low then
          (Char.ofNat (0x10000 + (unit - 0xD800) * 0x400 + (low - 0xDC00)) :: ·) <$> unescape? rest
        else none
      | _ => none
    else if isLowSurrogate unit then none
    else (Char.ofNat unit :: ·) <$> unescape? rest
  | '\\' :: c :: rest => do
    let c ← shortEscape? c
    (c :: ·) <$> unescape? rest
  | c :: rest => if c = '\\' ∨ c.toNat < 0x20 then none else (c :: ·) <$> unescape? rest

/-! ### Numbers -/

/-- A natural number without superfluous zeros, and what follows its digits. -/
def natural? (text : List Char) : Option (Nat × List Char) :=
  match text.takeWhile Char.isDigit with
  | [] => none
  | '0' :: more => some (0, more ++ text.dropWhile Char.isDigit)
  | digits => some (Nat.ofDigitChars 10 digits 0, text.dropWhile Char.isDigit)

/-! ### Tokens -/

inductive Token where
  | beginArray
  | endArray
  | beginObject
  | endObject
  | comma
  | colon
  | string (text : String)
  /-- A number, a truth value or null. -/
  | scalar (value : Value)
  deriving Repr

def isBlank (c : Char) : Bool := c == ' ' || c == '\t' || c == '\n' || c == '\r'

/-- The token with which a text begins, and the text behind it. -/
def firstToken? : List Char → Option (Token × List Char)
  | '[' :: rest => some (.beginArray, rest)
  | ']' :: rest => some (.endArray, rest)
  | '\x7b' :: rest => some (.beginObject, rest)
  | '\x7d' :: rest => some (.endObject, rest)
  | ',' :: rest => some (.comma, rest)
  | ':' :: rest => some (.colon, rest)
  | 'n' :: 'u' :: 'l' :: 'l' :: rest => some (.scalar .null, rest)
  | 't' :: 'r' :: 'u' :: 'e' :: rest => some (.scalar (.boolean true), rest)
  | 'f' :: 'a' :: 'l' :: 's' :: 'e' :: rest => some (.scalar (.boolean false), rest)
  | '"' :: rest => do
    let (body, after) ← upToQuote? rest
    let text ← unescape? body
    return (.string (String.ofList text), after)
  | '-' :: rest => do
    let (n, after) ← natural? rest
    return (.scalar (.number (-n)), after)
  | text => do
    let (n, after) ← natural? text
    return (.scalar (.number n), after)

theorem upToQuote?_shorter {text body after : List Char}
    (found : upToQuote? text = some (body, after)) : after.length < text.length := by
  induction text using upToQuote?.induct generalizing body with
  | case1 => cases found
  | case2 rest =>
    cases found
    exact Nat.lt_succ_self _
  | case3 c rest ih =>
    obtain ⟨⟨body', after'⟩, found', same⟩ := Option.map_eq_some_iff.mp found
    cases same
    exact Nat.lt_of_lt_of_le (ih found') (by simp only [List.length_cons]; omega)
  | case4 c rest noQuote noEscape ih =>
    rw [upToQuote?.eq_4 c rest noQuote noEscape] at found
    obtain ⟨⟨body', after'⟩, found', same⟩ := Option.map_eq_some_iff.mp found
    cases same
    exact Nat.lt_succ_of_lt (ih found')

theorem natural?_shorter {text after : List Char} {n : Nat}
    (found : natural? text = some (n, after)) : after.length < text.length := by
  have whole := congrArg List.length
    (List.takeWhile_append_dropWhile (p := Char.isDigit) (l := text))
  rw [List.length_append] at whole
  unfold natural? at found
  split at found
  next => cases found
  next more taken =>
    cases found
    rw [taken, List.length_cons] at whole
    rw [List.length_append]
    omega
  next nonempty _ =>
    cases found
    have positive := List.length_pos_iff.mpr nonempty
    omega

theorem firstToken?_shorter {text after : List Char} {token : Token}
    (found : firstToken? text = some (token, after)) : after.length < text.length := by
  unfold firstToken? at found
  split at found
  case h_10 rest =>
    obtain ⟨⟨body, after'⟩, closed, found⟩ := Option.bind_eq_some_iff.mp found
    obtain ⟨text, -, found⟩ := Option.bind_eq_some_iff.mp found
    cases found
    exact Nat.lt_succ_of_lt (upToQuote?_shorter closed)
  case h_11 rest =>
    obtain ⟨⟨n, after'⟩, read, found⟩ := Option.bind_eq_some_iff.mp found
    cases found
    exact Nat.lt_succ_of_lt (natural?_shorter read)
  case h_12 =>
    obtain ⟨⟨n, after'⟩, read, found⟩ := Option.bind_eq_some_iff.mp found
    cases found
    exact natural?_shorter read
  all_goals
    cases found
    simp only [List.length_cons]
    omega

/-- The tokens of a text. -/
def tokens? (text : List Char) : Option (List Token) :=
  match text with
  | [] => some []
  | c :: rest =>
    if isBlank c then tokens? rest
    else
      match found : firstToken? (c :: rest) with
      | none => none
      | some (token, after) =>
        have : after.length < rest.length + 1 := firstToken?_shorter found
        (token :: ·) <$> tokens? after
termination_by text.length

/-! ### Values -/

/-- An array or object that has begun, with what it holds so far. -/
inductive Frame where
  | array (items : List Value)
  /-- The value of the named field comes next. -/
  | object (fields : List (String × Value)) (name : String)
  deriving Repr

/-- What has been read, with the innermost frame first. -/
inductive State where
  /-- A value must come, or the end of an array that has just begun. -/
  | value (first : Bool) (frames : List Frame)
  /-- A name must come, or the end of an object that has just begun. -/
  | name (first : Bool) (fields : List (String × Value)) (frames : List Frame)
  | colon (fields : List (String × Value)) (name : String) (frames : List Frame)
  /-- A value is complete. -/
  | behind (value : Value) (frames : List Frame)
  deriving Repr

def step : State → Token → Option State
  | .value _ frames, .scalar value => some (.behind value frames)
  | .value _ frames, .string text => some (.behind (.string text) frames)
  | .value _ frames, .beginArray => some (.value true (.array [] :: frames))
  | .value _ frames, .beginObject => some (.name true [] frames)
  | .value true (.array items :: frames), .endArray => some (.behind (.array items) frames)
  | .name _ fields frames, .string name => some (.colon fields name frames)
  | .name true fields frames, .endObject => some (.behind (.object fields) frames)
  | .colon fields name frames, .colon => some (.value false (.object fields name :: frames))
  | .behind value (.array items :: frames), .comma =>
    some (.value false (.array (items ++ [value]) :: frames))
  | .behind value (.array items :: frames), .endArray =>
    some (.behind (.array (items ++ [value])) frames)
  | .behind value (.object fields name :: frames), .comma =>
    some (.name false (fields ++ [(name, value)]) frames)
  | .behind value (.object fields name :: frames), .endObject =>
    some (.behind (.object (fields ++ [(name, value)])) frames)
  | _, _ => none

/-- The value that a text stands for. -/
def read? (text : String) : Option Value := do
  let tokens ← tokens? text.toList
  match ← tokens.foldlM step (.value false []) with
  | .behind value [] => some value
  | _ => none

/-! ### Looking into a value -/

namespace Value

/-- The value of the first field of this name. -/
def field? (name : String) : Value → Option Value
  | object fields => fields.lookup name
  | _ => none

def string? : Value → Option String
  | string text => some text
  | _ => none

def boolean? : Value → Option Bool
  | boolean value => some value
  | _ => none

def integer? : Value → Option Int
  | number n => some n
  | _ => none

def natural? : Value → Option Nat
  | number (.ofNat n) => some n
  | _ => none

/-- Null, or what `read` makes of the value. -/
def nullable? {α : Type} (read : Value → Option α) : Value → Option (Option α)
  | null => some none
  | value => some <$> read value

def list? {α : Type} (read : Value → Option α) : Value → Option (List α)
  | array items => items.mapM read
  | _ => none

def fields? : Value → Option (List (String × Value))
  | object fields => some fields
  | _ => none

end Value

end SuiteRunner.Json
