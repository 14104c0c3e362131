/-!
# JSON text

Values that are written as JSON, the fields of an object in the order in which they are
listed. The compact form has no blanks at all and no line break, since every control
character inside a string is escaped; the wide form puts each item on a line of its own.
-/

namespace SuiteRunner.Json

inductive Value where
  | null
  | boolean (value : Bool)
  | number (value : Int)
  | string (text : String)
  | array (items : List Value)
  | object (fields : List (String × Value))
  deriving Repr

def Value.ofOption {α : Type} (f : α → Value) : Option α → Value
  | none => .null
  | some a => f a

def Value.ofNat (n : Nat) : Value := .number n

def Value.strings (texts : List String) : Value := .array (texts.map .string)

/-! ### Strings -/

def hexDigit (n : Nat) : Char := (Nat.toDigits 16 n).headD '0'

def escapedChar (c : Char) : List Char :=
  match c with
  | '"' => ['\\', '"']
  | '\\' => ['\\', '\\']
  | '\n' => ['\\', 'n']
  | '\r' => ['\\', 'r']
  | '\t' => ['\\', 't']
  | '\x08' => ['\\', 'b']
  | '\x0c' => ['\\', 'f']
  | c =>
    if c.toNat < 0x20 then ['\\', 'u', '0', '0', hexDigit (c.toNat / 16), hexDigit (c.toNat % 16)]
    else [c]

def quoted (text : String) : String :=
  "\"" ++ String.ofList (text.toList.flatMap escapedChar) ++ "\""

/-! ### Compact form -/

mutual

def compact : Value → String
  | .null => "null"
  | .boolean value => if value then "true" else "false"
  | .number value => toString value
  | .string text => quoted text
  | .array items => "[" ++ ",".intercalate (compactItems items) ++ "]"
  | .object fields => "\x7b" ++ ",".intercalate (compactFields fields) ++ "\x7d"

def compactItems : List Value → List String
  | [] => []
  | item :: items => compact item :: compactItems items

def compactFields : List (String × Value) → List String
  | [] => []
  | (name, value) :: fields => (quoted name ++ ":" ++ compact value) :: compactFields fields

end

/-! ### Wide form -/

def indentation (depth : Nat) : String := "".pushn ' ' (2 * depth)

/-- Written items between brackets, each on its own line; an empty list stays on one. -/
def bracketed (left right : String) (depth : Nat) (items : List String) : String :=
  if items.isEmpty then left ++ right
  else
    let lines := items.map fun item => "\n" ++ indentation (depth + 1) ++ item
    left ++ ",".intercalate lines ++ "\n" ++ indentation depth ++ right

mutual

def wide (depth : Nat) : Value → String
  | .array items => bracketed "[" "]" depth (wideItems (depth + 1) items)
  | .object fields => bracketed "\x7b" "\x7d" depth (wideFields (depth + 1) fields)
  | value => compact value

def wideItems (depth : Nat) : List Value → List String
  | [] => []
  | item :: items => wide depth item :: wideItems depth items

def wideFields (depth : Nat) : List (String × Value) → List String
  | [] => []
  | (name, value) :: fields => (quoted name ++ ": " ++ wide depth value) :: wideFields depth fields

end

end SuiteRunner.Json
