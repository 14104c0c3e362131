import SuiteRunner.Proofs.Feature.Outlook

/-!
# Errors point at the first fault

A text that does not split into tokens is refused at the first character from which no token
starts. Tokens that are no expression are refused at the first of them that cannot follow those
before it, and if there is none, at their end, which is where they would have to go on.
-/

namespace SuiteRunner.Feature

/-! ### Where tokens stand -/

/-- The token starts at this byte column, behind the tokens before it. -/
def StandsAt (source : List Char) (before : List Token) (token : Token) (column : Nat) : Prop :=
  ∃ front back, source = front ++ back ∧ Splits front before ∧ Longest token back ∧
    column = Text.byteLength front + 1

/-- The character at this byte column, behind some tokens, is no blank and starts no token. -/
def StartsNothing (source : List Char) (before : List Token) (c : Char) (column : Nat) : Prop :=
  ∃ front rest, source = front ++ c :: rest ∧ Splits front before ∧ Text.isBlank c = false ∧
    (∀ token : Token, token.IsWord → ¬ token.text.toList <+: c :: rest) ∧
    column = Text.byteLength front + 1

/-- A longest word is a longest word in what is left of the text. -/
theorem Longest.of_prefix {token : Token} {source front : List Char}
    (longest : Longest token source) (begins : token.text.toList <+: front)
    (within : front <+: source) : Longest token front :=
  ⟨longest.isWord, begins, fun other isWord begins' =>
    longest.longest other isWord (begins'.trans within)⟩

/-- A token in front of a text that is cut off behind it stands there as well. -/
theorem Splits.token_of_append {token : Token} {front back : List Char} {before : List Token}
    (longest : Longest token (token.text.toList ++ (front ++ back)))
    (splits : Splits front before) : Splits (token.text.toList ++ front) (token :: before) := by
  refine .token (longest.of_prefix (List.prefix_append _ _) ?_) splits
  rw [← List.append_assoc]
  exact List.prefix_append _ _

theorem not_begins_of_firstToken? {c : Char} {rest : List Char} {token : Token}
    (missing : firstToken? (c :: rest) = none) (isWord : token.IsWord) :
    ¬ token.text.toList <+: c :: rest := by
  intro begins
  cases isName : isNameChar c with
  | true =>
    have taken : (c :: rest).takeWhile isNameChar = c :: rest.takeWhile isNameChar :=
      List.takeWhile_cons_of_pos isName
    cases missing.symm.trans (firstToken?_of_takeWhile taken)
  | false =>
    have longest := Longest.of_begins isWord begins isName
    obtain ⟨after, split⟩ := begins
    cases missing.symm.trans (firstToken?_eq_some_iff.mpr ⟨longest, split.symm⟩)

/-- Every token that is read stands where its column says. -/
theorem stands_of_tokensFrom {column : Nat} {source : List Char}
    {before after : List PlacedToken} {found : PlacedToken}
    (read : tokensFrom column source = .ok (before ++ found :: after)) :
    ∃ front back, source = front ++ back ∧ Splits front (bare before) ∧
      Longest found.token back ∧ found.column = column + Text.byteLength front := by
  -- By the recursion of the reader. A blank or a token moves the place by its own length; the token
  -- that is looked for is the first one or one of those behind it.
  fun_induction tokensFrom column source generalizing before with
  | case1 => simp at read
  | case2 column c rest isBlank ih =>
    obtain ⟨front, back, rfl, splits, longest, place⟩ := ih read
    exact ⟨c :: front, back, rfl, .blank isBlank splits, longest, place.trans (Nat.add_assoc _ _ _)⟩
  | case3 => cases read
  | case4 column c rest notBlank token behind first shorter ih =>
    obtain ⟨more, further, split⟩ := map_eq_ok read
    obtain ⟨longest, whole⟩ := firstToken?_eq_some_iff.mp first
    cases before with
    | nil =>
      cases split
      exact ⟨[], c :: rest, rfl, .done, longest, rfl⟩
    | cons head before =>
      cases split
      obtain ⟨front, back, rfl, splits, longest', place⟩ := ih further
      refine ⟨token.text.toList ++ front, back, ?_, ?_, longest', ?_⟩
      · rw [whole, List.append_assoc]
      · rw [whole] at longest
        exact .token_of_append longest splits
      · rw [place, Text.byteLength_append, Nat.add_assoc]

/-- Reading tokens fails at a character that starts none. -/
theorem startsNothing_of_tokensFrom {column : Nat} {source : List Char} {e : SyntaxError}
    (failed : tokensFrom column source = .error e) :
    ∃ front c rest before, source = front ++ c :: rest ∧ Splits front before ∧
      Text.isBlank c = false ∧ firstToken? (c :: rest) = none ∧
      e = .unexpectedChar c (column + Text.byteLength front) := by
  -- The reader fails where no token starts; what it has read up to there are the tokens in front.
  fun_induction tokensFrom column source with
  | case1 => cases failed
  | case2 column c rest isBlank ih =>
    obtain ⟨front, c', rest', before, rfl, splits, notBlank, missing, rfl⟩ := ih failed
    refine ⟨c :: front, c', rest', before, rfl, .blank isBlank splits, notBlank, missing, ?_⟩
    rw [Text.byteLength, Nat.add_assoc]
  | case3 column c rest notBlank missing =>
    cases failed
    exact ⟨[], c, rest, [], rfl, .done, Bool.not_eq_true _ ▸ notBlank, missing, rfl⟩
  | case4 column c rest notBlank token behind first shorter ih =>
    obtain ⟨longest, whole⟩ := firstToken?_eq_some_iff.mp first
    cases further : tokensFrom (column + Text.byteLength token.text.toList) behind with
    | ok more =>
      rw [further] at failed
      cases failed
    | error e' =>
      rw [further] at failed
      cases failed
      obtain ⟨front, c', rest', before, rfl, splits, notBlank', missing, rfl⟩ := ih further
      refine ⟨token.text.toList ++ front, c', rest', token :: before, ?_, ?_, notBlank', missing,
        ?_⟩
      · rw [whole, List.append_assoc]
      · rw [whole] at longest
        exact .token_of_append longest splits
      · rw [Text.byteLength_append, Nat.add_assoc]

/-! ### What an error says -/

variable {source : String}

theorem startsNothing_of_tokens {e : SyntaxError} (failed : tokens source = .error e) :
    ∃ before c column, StartsNothing source.toList before c column ∧
      e = .unexpectedChar c column := by
  obtain ⟨front, c, rest, before, split, splits, notBlank, missing, rfl⟩ :=
    startsNothing_of_tokensFrom failed
  refine ⟨before, c, 1 + Text.byteLength front, ⟨front, rest, split, splits, notBlank, ?_, ?_⟩, rfl⟩
  · exact fun token isWord => not_begins_of_firstToken? missing isWord
  · exact Nat.add_comm _ _

theorem standsAt_of_tokens {before after : List PlacedToken} {found : PlacedToken}
    (read : tokens source = .ok (before ++ found :: after)) :
    StandsAt source.toList (bare before) found.token found.column := by
  obtain ⟨front, back, split, splits, longest, place⟩ := stands_of_tokensFrom read
  exact ⟨front, back, split, splits, longest, place.trans (Nat.add_comm _ _)⟩

/-- Unless a text does not split, it is its tokens that are refused. -/
theorem refused_of_parse {e : SyntaxError} (failed : Expr.parse source = .error e)
    (split : ∀ c column, e ≠ .unexpectedChar c column) :
    ∃ placed, tokens source = .ok placed ∧ Splits source.toList (bare placed) ∧
      Refused .start placed e := by
  unfold Expr.parse at failed
  split at failed
  next error unsplit =>
    cases failed
    obtain ⟨before, c, column, -, same⟩ := startsNothing_of_tokens unsplit
    exact absurd same (split c column)
  next placed read => exact ⟨placed, read, tokensFrom_splits read, ofTokens_refused failed⟩

theorem fault_of_unexpectedToken {text : String} {column : Nat}
    (failed : Expr.parse source = .error (.unexpectedToken text column)) :
    ∃ before token after, Splits source.toList (before ++ token :: after) ∧
      StandsAt source.toList before token column ∧ token.text = text ∧
      Viable before ∧ ¬ Viable (before ++ [token]) := by
  obtain ⟨placed, read, splits, refused⟩ := refused_of_parse failed fun _ _ => nofun
  cases refused with
  | @token before after found reached split behind impossible =>
    subst split
    rw [bare_append, bare_cons] at splits
    -- Any further tokens would have to go on from an outlook that takes none of this kind.
    have dead : ¬ Viable (bare (before ++ [found])) := by
      rw [viable_iff]
      rintro ⟨further, behind'⟩
      rw [Outlook.behind?_concat, behind, Option.bind_some, impossible] at behind'
      cases behind'
    rw [bare_append] at dead
    exact ⟨bare before, found.token, bare after, splits, standsAt_of_tokens read, rfl,
      viable_iff.mpr ⟨reached, behind⟩, dead⟩

theorem fault_of_unexpectedEnd (failed : Expr.parse source = .error .unexpectedEnd) :
    ∃ found, Splits source.toList found ∧ Viable found ∧
      (found = [] ∨
        ∃ last ∈ [Token.and, .or, .not, .opening], found.getLast? = some last) := by
  obtain ⟨placed, read, splits, refused⟩ := refused_of_parse failed fun _ _ => nofun
  cases refused with
  | ended behind =>
    exact ⟨bare placed, splits, viable_iff.mpr ⟨_, behind⟩, getLast?_of_operand behind⟩

theorem fault_of_unclosedParenthesis {column : Nat}
    (failed : Expr.parse source = .error (.unclosedParenthesis column)) :
    ∃ before after, Splits source.toList (before ++ .opening :: after) ∧
      StandsAt source.toList before .opening column ∧ Balanced after ∧
      ∃ count e, 0 < count ∧ Derives .disjunction
        (before ++ .opening :: after ++ List.replicate count .closing) e := by
  obtain ⟨placed, read, splits, refused⟩ := refused_of_parse failed fun _ _ => nofun
  cases refused with
  | @unclosed _ opened behind =>
    obtain ⟨e, derived⟩ := derives_closed behind
    cases unpaired_of_behind? behind with
    | @some before after _ _ outer balanced =>
      rw [bare_append, bare_cons] at splits derived
      exact ⟨bare before, bare after, splits, standsAt_of_tokens read, balanced,
        _, e, Nat.succ_pos _, derived⟩

/-- A text is refused for a character if and only if it does not split. -/
theorem unexpectedChar_iff :
    (∃ c column, Expr.parse source = .error (.unexpectedChar c column)) ↔
      ∀ found, ¬ Splits source.toList found := by
  constructor
  · rintro ⟨c, column, failed⟩ found splits
    obtain ⟨placed, read, -⟩ := tokensFrom_of_splits 1 splits
    unfold Expr.parse tokens at failed
    rw [read] at failed
    cases ofTokens_refused failed
  · intro unsplit
    cases read : tokens source with
    | ok placed => exact absurd (tokensFrom_splits read) (unsplit _)
    | error e =>
      obtain ⟨before, c, column, -, rfl⟩ := startsNothing_of_tokens read
      exact ⟨c, column, by rw [Expr.parse, read]⟩

theorem fault_of_unexpectedChar {c : Char} {column : Nat}
    (failed : Expr.parse source = .error (.unexpectedChar c column)) :
    ∃ before, StartsNothing source.toList before c column := by
  unfold Expr.parse at failed
  split at failed
  next error unsplit =>
    cases failed
    obtain ⟨before, c', column', nothing, same⟩ := startsNothing_of_tokens unsplit
    cases same
    exact ⟨before, nothing⟩
  next => cases ofTokens_refused failed

/-- An unexpected token is the first that cannot follow those before it; at an unexpected end an
operand is due; an unclosed parenthesis is the innermost one, and closing is all that is left to do.
A text that does not split, and no other, is refused for its first character that starts no
token. -/
theorem Expr.parse_points_at_fault (source : String) :
    (∀ text column, Expr.parse source = .error (.unexpectedToken text column) →
      ∃ before token after, Splits source.toList (before ++ token :: after) ∧
        StandsAt source.toList before token column ∧ token.text = text ∧
        Viable before ∧ ¬ Viable (before ++ [token])) ∧
    (Expr.parse source = .error .unexpectedEnd →
      ∃ found, Splits source.toList found ∧ Viable found ∧
        (found = [] ∨
          ∃ last ∈ [Token.and, .or, .not, .opening], found.getLast? = some last)) ∧
    (∀ column, Expr.parse source = .error (.unclosedParenthesis column) →
      ∃ before after, Splits source.toList (before ++ .opening :: after) ∧
        StandsAt source.toList before .opening column ∧ Balanced after ∧
        ∃ count e, 0 < count ∧ Derives .disjunction
          (before ++ .opening :: after ++ List.replicate count .closing) e) ∧
    ((∃ c column, Expr.parse source = .error (.unexpectedChar c column)) ↔
      ∀ found, ¬ Splits source.toList found) ∧
    (∀ c column, Expr.parse source = .error (.unexpectedChar c column) →
      ∃ before, StartsNothing source.toList before c column) :=
  ⟨fun _ _ => fault_of_unexpectedToken, fault_of_unexpectedEnd,
    fun _ => fault_of_unclosedParenthesis, unexpectedChar_iff, fun _ _ => fault_of_unexpectedChar⟩

/-- The second parenthesis is closed, and the third is open inside the first. -/
example : Expr.ofTokens [⟨.opening, 1⟩, ⟨.opening, 2⟩, ⟨.name "a", 3⟩, ⟨.closing, 4⟩, ⟨.and, 6⟩,
      ⟨.opening, 9⟩, ⟨.name "b", 10⟩] = .error (.unclosedParenthesis 9) := by
  cbv

end SuiteRunner.Feature
