import SuiteRunner.Text.Hidden

/-!
# Quoted text

A text that is spoken of in a message stands in double quotes. Quotes, backslashes and
the usual control characters are written as escapes, and a character that would not show
as its number in braces.
-/

namespace SuiteRunner.Text

/-- The digits of a number in base sixteen, in lower case. -/
def hexadecimal (n : Nat) : List Char := Nat.toDigits 16 n

def needsNumber (c : Char) : Bool :=
  c.val < 0x20 || c.val == 0x7F || (0x80 ≤ c.val && isHidden c)

def quotedChar (c : Char) : List Char :=
  match c with
  | '"' => ['\\', '"']
  | '\\' => ['\\', '\\']
  | '\t' => ['\\', 't']
  | '\r' => ['\\', 'r']
  | '\n' => ['\\', 'n']
  | '\x00' => ['\\', '0']
  | c =>
    if needsNumber c then ['\\', 'u', '\x7b'] ++ hexadecimal c.toNat ++ ['\x7d'] else [c]

def quoted (text : String) : String :=
  String.ofList ('"' :: text.toList.flatMap quotedChar ++ ['"'])

end SuiteRunner.Text
