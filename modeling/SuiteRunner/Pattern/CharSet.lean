import SuiteRunner.Pattern.Folding
import SuiteRunner.Pattern.Word
import SuiteRunner.Text.Basic

/-!
# Sets of characters

The sets that a pattern can speak of: ranges, digits, blanks, word characters, and what
can be made of them.
-/

namespace SuiteRunner.Pattern

inductive CharSet where
  | nothing
  | range (first last : Char)
  | digit
  | blank
  | word
  | complement (set : CharSet)
  | union (a b : CharSet)
  | intersection (a b : CharSet)
  /-- The characters that are in exactly one of the sets. -/
  | symmetricDifference (a b : CharSet)
  /-- The set, whatever the case of its letters. -/
  | anyCase (set : CharSet)
  deriving DecidableEq, Repr

namespace CharSet

def single (c : Char) : CharSet := range c c

def difference (a b : CharSet) : CharSet := intersection a (complement b)

def contains : CharSet → Char → Bool
  | nothing, _ => false
  | range first last, c => first ≤ c && c ≤ last
  | digit, c => isDigit c
  | blank, c => Text.isBlank c
  | word, c => isWord c
  | complement set, c => !set.contains c
  | union a b, c => a.contains c || b.contains c
  | intersection a b, c => a.contains c && b.contains c
  | symmetricDifference a b, c => a.contains c != b.contains c
  | anyCase set, c => (caseVariants c).any set.contains

def ofRanges (ranges : List (Char × Char)) : CharSet :=
  ranges.foldl (fun set (first, last) => union set (range first last)) nothing

/-- The ASCII sets that have a name. -/
def ofName? : String → Option CharSet
  | "alnum" => some (ofRanges [('0', '9'), ('A', 'Z'), ('a', 'z')])
  | "alpha" => some (ofRanges [('A', 'Z'), ('a', 'z')])
  | "ascii" => some (range '\x00' '\x7f')
  | "blank" => some (ofRanges [('\t', '\t'), (' ', ' ')])
  | "cntrl" => some (ofRanges [('\x00', '\x1f'), ('\x7f', '\x7f')])
  | "digit" => some (range '0' '9')
  | "graph" => some (range '!' '~')
  | "lower" => some (range 'a' 'z')
  | "print" => some (range ' ' '~')
  | "punct" => some (ofRanges [('!', '/'), (':', '@'), ('[', '`'), ('\x7b', '~')])
  | "space" => some (ofRanges [('\t', '\r'), (' ', ' ')])
  | "upper" => some (range 'A' 'Z')
  | "word" => some (ofRanges [('0', '9'), ('A', 'Z'), ('a', 'z'), ('_', '_')])
  | "xdigit" => some (ofRanges [('0', '9'), ('A', 'F'), ('a', 'f')])
  | _ => none

end CharSet

end SuiteRunner.Pattern
