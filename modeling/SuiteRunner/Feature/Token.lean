import SuiteRunner.Text.Basic

/-!
# Tokens of a feature expression

The characters of an expression fall into tokens by longest match; blanks separate
tokens and mean nothing else. Each token remembers the byte column, counted from
one, at which it starts, because errors are reported there.
-/

namespace SuiteRunner.Feature

inductive Token where
  | name (text : String)
  | star
  | and
  | or
  | not
  | opening
  | closing
  deriving DecidableEq, Repr

def Token.text : Token → String
  | name text => text
  | star => "*"
  | and => "&&"
  | or => "||"
  | not => "!"
  | opening => "("
  | closing => ")"

structure PlacedToken where
  token : Token
  column : Nat
  deriving DecidableEq, Repr

inductive SyntaxError where
  | unexpectedChar (char : Char) (column : Nat)
  | unexpectedToken (token : String) (column : Nat)
  | unexpectedEnd
  | unclosedParenthesis (column : Nat)
  deriving DecidableEq, Repr

namespace SyntaxError

def column? : SyntaxError → Option Nat
  | unexpectedChar _ column | unexpectedToken _ column | unclosedParenthesis column => some column
  | unexpectedEnd => none

def message : SyntaxError → String
  | unexpectedChar char column =>
    "unexpected character '" ++ char.toString ++ "' at column " ++ toString column
  | unexpectedToken token column => "unexpected '" ++ token ++ "' at column " ++ toString column
  | unexpectedEnd => "expression ended unexpectedly"
  | unclosedParenthesis column => "unclosed '(' at column " ++ toString column

end SyntaxError

/-! ### Splitting into tokens -/

def isNameChar (c : Char) : Bool :=
  Text.isAsciiAlphanumeric c || c ∈ ['-', '+', '=', '.', '_', '/']

/-- The token with which a text begins, and the text behind it. -/
def firstToken? : List Char → Option (Token × List Char)
  | '(' :: rest => some (.opening, rest)
  | ')' :: rest => some (.closing, rest)
  | '!' :: rest => some (.not, rest)
  | '*' :: rest => some (.star, rest)
  | '&' :: '&' :: rest => some (.and, rest)
  | '|' :: '|' :: rest => some (.or, rest)
  | source =>
    match source.takeWhile isNameChar with
    | [] => none
    | c :: run => some (.name (String.ofList (c :: run)), source.dropWhile isNameChar)

/-- The word of the first token is a part of the text, and not an empty one. -/
theorem eq_append_of_firstToken? {source rest : List Char} {token : Token}
    (found : firstToken? source = some (token, rest)) :
    token.text.toList ≠ [] ∧ source = token.text.toList ++ rest := by
  unfold firstToken? at found
  split at found
  case h_7 =>
    split at found
    next => cases found
    next c run taken =>
      cases found
      rw [Token.text, String.toList_ofList, ← taken, List.takeWhile_append_dropWhile, taken]
      exact ⟨List.cons_ne_nil _ _, rfl⟩
  all_goals
    cases found
    exact ⟨by decide, rfl⟩

/-- Read tokens from `column` on, with blanks between them. -/
def tokensFrom (column : Nat) (source : List Char) : Except SyntaxError (List PlacedToken) :=
  match source with
  | [] => .ok []
  | c :: rest =>
    if Text.isBlank c then tokensFrom (column + c.utf8Size) rest
    else
      match found : firstToken? (c :: rest) with
      | none => .error (.unexpectedChar c column)
      | some (token, after) =>
        have : after.length < rest.length + 1 := by
          obtain ⟨nonempty, split⟩ := eq_append_of_firstToken? found
          rw [← List.length_cons, split, List.length_append]
          exact Nat.lt_add_of_pos_left (List.length_pos_iff.mpr nonempty)
        (⟨token, column⟩ :: ·) <$> tokensFrom (column + Text.byteLength token.text.toList) after
termination_by source.length

def tokens (source : String) : Except SyntaxError (List PlacedToken) :=
  tokensFrom 1 source.toList

end SuiteRunner.Feature
