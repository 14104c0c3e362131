import Mathlib.Data.List.TakeWhile
import SuiteRunner.Feature.Token
import SuiteRunner.Proofs.Except

/-!
# Splitting an expression into tokens

A text splits into tokens if it can be used up from the front, each time by a blank or by
the longest word of a token. There is at most one such split, and reading the tokens finds
it or stops at a character from which no token starts.
-/

namespace SuiteRunner.Feature

/-! ### Words -/

/-- The words of names are runs of name characters, every other token has its one word. -/
def Token.IsWord : Token → Prop
  | .name text => text.toList ≠ [] ∧ ∀ c ∈ text.toList, isNameChar c = true
  | _ => True

/-- The word of the token is the longest word with which the text begins. -/
structure Longest (token : Token) (source : List Char) : Prop where
  isWord : token.IsWord
  begins : token.text.toList <+: source
  longest : ∀ other : Token, other.IsWord → other.text.toList <+: source →
    other.text.toList.length ≤ token.text.toList.length

/-- The text is a sequence of tokens, each as long as it can be, with blanks around them. -/
inductive Splits : List Char → List Token → Prop where
  | done : Splits [] []
  | blank {c : Char} {rest : List Char} {found : List Token}
      (isBlank : Text.isBlank c = true) (splits : Splits rest found) : Splits (c :: rest) found
  | token {token : Token} {rest : List Char} {found : List Token}
      (longest : Longest token (token.text.toList ++ rest)) (splits : Splits rest found) :
      Splits (token.text.toList ++ rest) (token :: found)

theorem not_isNameChar_of_isBlank {c : Char} (isBlank : Text.isBlank c = true) :
    isNameChar c = false := by
  simp only [Text.isBlank, isNameChar, Text.isAsciiAlphanumeric] at *
  simp [Char.le_def, Char.ext_iff, UInt32.le_iff_toNat_le, ← UInt32.toNat_inj] at *
  omega

/-- A word that does not begin with a name character is that of one token only. -/
theorem Token.eq_of_head {token other : Token} {c : Char} (noName : isNameChar c = false)
    (isWord : token.IsWord) (isWord' : other.IsWord) (head : token.text.toList.head? = some c)
    (head' : other.text.toList.head? = some c) : token = other := by
  have named {text : String} (isWord : (Token.name text).IsWord)
      (head : text.toList.head? = some c) : False := by
    rw [isWord.2 c (List.mem_of_head? head)] at noName
    cases noName
  -- The words that are not names have different first characters.
  cases token <;> cases other <;>
    first
    | rfl
    | exact (named isWord head).elim
    | exact (named isWord' head').elim
    | (simp [Token.text] at head head'; simp [← head] at head')

theorem head?_of_begins {word source : List Char} (nonempty : word ≠ [])
    (begins : word <+: source) : word.head? = source.head? := by
  obtain ⟨rest, rfl⟩ := begins
  cases word with
  | nil => exact absurd rfl nonempty
  | cons c word => rfl

theorem Token.text_ne_nil {token : Token} (isWord : token.IsWord) : token.text.toList ≠ [] := by
  cases token with
  | name text => exact isWord.1
  | _ => simp [Token.text]

/-- A token whose word is not a name stands wherever its word does. -/
theorem Longest.of_begins {token : Token} {c : Char} {rest : List Char} (isWord : token.IsWord)
    (begins : token.text.toList <+: c :: rest) (noName : isNameChar c = false) :
    Longest token (c :: rest) := by
  refine ⟨isWord, begins, fun other isWord' begins' => ?_⟩
  have head := head?_of_begins (Token.text_ne_nil isWord) begins
  have head' := head?_of_begins (Token.text_ne_nil isWord') begins'
  exact (Token.eq_of_head noName isWord isWord' head head' ▸ Nat.le_refl _)

theorem length_le_takeWhile {word source : List Char} (begins : word <+: source)
    (run : ∀ c ∈ word, isNameChar c = true) :
    word.length ≤ (source.takeWhile isNameChar).length := by
  obtain ⟨rest, rfl⟩ := begins
  rw [List.takeWhile_append_of_pos run, List.length_append]
  exact Nat.le_add_right _ _

/-- The longest name at the beginning of a text takes all its name characters. -/
theorem longest_name_iff {text : String} {source : List Char} :
    Longest (.name text) source ↔
      text.toList ≠ [] ∧ text.toList = source.takeWhile isNameChar := by
  constructor
  · rintro ⟨isWord, begins, longest⟩
    have short := length_le_takeWhile begins isWord.2
    -- The whole run of name characters is a word as well, so it is not longer than this one.
    have run : (Token.name (String.ofList (source.takeWhile isNameChar))).IsWord := by
      refine ⟨?_, ?_⟩
      · rw [String.toList_ofList]
        intro empty
        rw [empty, List.length_nil, Nat.le_zero, List.length_eq_zero_iff] at short
        exact isWord.1 short
      · rw [String.toList_ofList]
        exact fun c member => List.mem_takeWhile_imp member
    have long := longest _ run (by simpa [Token.text] using List.takeWhile_prefix _)
    simp only [Token.text, String.toList_ofList] at long
    refine ⟨isWord.1, ?_⟩
    have begins' : source.takeWhile isNameChar <+: source := List.takeWhile_prefix _
    exact (List.prefix_of_prefix_length_le begins begins' short).eq_of_length
      (Nat.le_antisymm short long)
  · rintro ⟨nonempty, taken⟩
    refine ⟨⟨nonempty, fun c member => ?_⟩, ?_, fun other isWord begins => ?_⟩
    · rw [taken] at member
      exact List.mem_takeWhile_imp member
    · change text.toList <+: source
      rw [taken]
      exact List.takeWhile_prefix _
    · change _ ≤ text.toList.length
      cases other with
      | name run =>
        rw [taken]
        exact length_le_takeWhile begins isWord.2
      | _ =>
        -- Such a word begins with the character that the name begins with.
        have head := head?_of_begins (Token.text_ne_nil isWord) begins
        cases source with
        | nil => exact absurd taken nonempty
        | cons c rest =>
          have isName : isNameChar c = true := by
            rw [taken, List.takeWhile_cons] at nonempty
            split at nonempty
            next isName => exact isName
            next => exact absurd rfl nonempty
          rw [Option.some.inj head.symm] at isName
          exact absurd isName (by decide)

/-! ### The first token -/

theorem firstToken?_of_takeWhile {source run : List Char} {c : Char}
    (taken : source.takeWhile isNameChar = c :: run) :
    firstToken? source =
      some (.name (String.ofList (c :: run)), source.dropWhile isNameChar) := by
  unfold firstToken?
  split
  case h_7 => rw [taken]
  all_goals
    rw [List.takeWhile_cons_of_neg (by decide)] at taken
    cases taken

/-- The first token is the longest one. -/
theorem firstToken?_eq_some_iff {token : Token} {source rest : List Char} :
    firstToken? source = some (token, rest) ↔
      Longest token source ∧ source = token.text.toList ++ rest := by
  constructor
  · intro found
    have split := (eq_append_of_firstToken? found).2
    refine ⟨?_, split⟩
    -- Names are read in the last branch only, all other words in branches of their own.
    unfold firstToken? at found
    split at found
    case h_7 =>
      split at found
      next => cases found
      next c run taken =>
        cases found
        rw [longest_name_iff, String.toList_ofList]
        exact ⟨List.cons_ne_nil _ _, taken.symm⟩
    all_goals
      cases found
      exact Longest.of_begins trivial ⟨_, split.symm⟩ (by decide)
  · rintro ⟨longest, split⟩
    cases token with
    | name text =>
      obtain ⟨nonempty, taken⟩ := longest_name_iff.mp longest
      obtain ⟨c, run, shape⟩ := List.exists_cons_of_ne_nil nonempty
      have whole : text.toList ++ source.dropWhile isNameChar = text.toList ++ rest := by
        rw [taken, List.takeWhile_append_dropWhile, ← taken]
        exact split
      rw [firstToken?_of_takeWhile (taken.symm.trans shape), ← shape, String.ofList_toList,
        List.append_cancel_left whole]
    | _ =>
      rw [split]
      rfl

/-- A text begins with one token at most. -/
theorem Longest.unique {token other : Token} {source : List Char} (longest : Longest token source)
    (longest' : Longest other source) : token = other := by
  obtain ⟨rest, split⟩ := longest.begins
  obtain ⟨rest', split'⟩ := longest'.begins
  have found := firstToken?_eq_some_iff.mpr ⟨longest, split.symm⟩
  rw [firstToken?_eq_some_iff.mpr ⟨longest', split'.symm⟩] at found
  cases found
  rfl

theorem not_isBlank_of_longest {token : Token} {c : Char} {rest : List Char}
    (longest : Longest token (c :: rest)) : Text.isBlank c = false := by
  rw [← Bool.not_eq_true]
  intro isBlank
  have noName := not_isNameChar_of_isBlank isBlank
  have head := head?_of_begins (Token.text_ne_nil longest.isWord) longest.begins
  cases token with
  | name text =>
    rw [longest.isWord.2 c (List.mem_of_head? head)] at noName
    cases noName
  | _ =>
    cases head
    exact absurd isBlank (by decide)

/-! ### All tokens -/

theorem Splits.of_firstToken? {token : Token} {source rest : List Char} {more : List Token}
    (found : firstToken? source = some (token, rest)) (splits : Splits rest more) :
    Splits source (token :: more) := by
  obtain ⟨longest, rfl⟩ := firstToken?_eq_some_iff.mp found
  exact .token longest splits

/-- Reading the tokens of a text finds its split. -/
theorem tokensFrom_splits {column : Nat} {source : List Char} {placed : List PlacedToken}
    (read : tokensFrom column source = .ok placed) : Splits source (placed.map (·.token)) := by
  fun_induction tokensFrom column source generalizing placed with
  | case1 column =>
    cases read
    exact .done
  | case2 column c rest isBlank ih => exact .blank isBlank (ih read)
  | case3 => cases read
  | case4 column c rest notBlank token after found shorter ih =>
    obtain ⟨more, further, rfl⟩ := map_eq_ok read
    exact .of_firstToken? found (ih further)

theorem tokensFrom_nil (column : Nat) : tokensFrom column [] = .ok [] := by
  rw [tokensFrom.eq_def]

theorem tokensFrom_blank (column : Nat) {c : Char} (rest : List Char)
    (isBlank : Text.isBlank c = true) :
    tokensFrom column (c :: rest) = tokensFrom (column + c.utf8Size) rest := by
  rw [tokensFrom.eq_def]
  exact if_pos isBlank

theorem tokensFrom_token (column : Nat) {token : Token} {rest : List Char}
    (longest : Longest token (token.text.toList ++ rest)) :
    tokensFrom column (token.text.toList ++ rest) =
      (⟨token, column⟩ :: ·) <$> tokensFrom (column + Text.byteLength token.text.toList) rest := by
  have first := firstToken?_eq_some_iff.mpr ⟨longest, rfl⟩
  -- The reader asks for a blank before it looks for a token.
  obtain ⟨c, word, shape⟩ := List.exists_cons_of_ne_nil (Token.text_ne_nil longest.isWord)
  rw [shape, List.cons_append] at longest first ⊢
  have notBlank : ¬ Text.isBlank c = true := by simp [not_isBlank_of_longest longest]
  rw [tokensFrom.eq_def]
  simp only [if_neg notBlank]
  split
  next missing => cases missing.symm.trans first
  next token' after found =>
    cases found.symm.trans first
    rw [← shape]

/-- A text that splits is read, whatever the column it starts at. -/
theorem tokensFrom_of_splits (column : Nat) {source : List Char} {found : List Token}
    (splits : Splits source found) :
    ∃ placed, tokensFrom column source = .ok placed ∧ placed.map (·.token) = found := by
  induction splits generalizing column with
  | done => exact ⟨[], tokensFrom_nil column, List.map_nil⟩
  | @blank c rest found isBlank splits ih =>
    obtain ⟨placed, read, same⟩ := ih (column + c.utf8Size)
    exact ⟨placed, (tokensFrom_blank column rest isBlank).trans read, same⟩
  | @token token rest found longest splits ih =>
    obtain ⟨placed, read, same⟩ := ih (column + Text.byteLength token.text.toList)
    refine ⟨⟨token, column⟩ :: placed, ?_, by rw [List.map_cons, same]⟩
    rw [tokensFrom_token column longest, read]
    rfl

/-- A text splits in one way at most. -/
theorem Splits.unique {source : List Char} {found found' : List Token}
    (splits : Splits source found) (splits' : Splits source found') : found = found' := by
  obtain ⟨placed, read, same⟩ := tokensFrom_of_splits 1 splits
  obtain ⟨placed', read', same'⟩ := tokensFrom_of_splits 1 splits'
  cases read.symm.trans read'
  exact same.symm.trans same'

end SuiteRunner.Feature
