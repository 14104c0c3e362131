import SuiteRunner.Proofs.Feature.Grammar
import SuiteRunner.Proofs.Feature.Grouping

/-!
# Written forms are read back

The written form of an expression splits into tokens that the grammar derives, for the same
expression with its chains grouped to the left: a written chain has no parentheses, and a chain
without parentheses is read to the left.
-/

namespace SuiteRunner.Feature

namespace Operator

def token : Operator → Token
  | and => .and
  | or => .or

/-- What a chain of the operator is. -/
def category : Operator → Category
  | and => .conjunction
  | or => .disjunction

/-- What stands between the operators of a chain. -/
def operands : Operator → Category
  | and => .negation
  | or => .conjunction

end Operator

namespace Expr

def parenthesisedWords (needed : Bool) (found : List Token) : List Token :=
  if needed then .opening :: found ++ [.closing] else found

/-- The tokens of the written form. -/
def words : Expr → List Token
  | always => [.star]
  | feature name => [.name name]
  | not inner => .not :: parenthesisedWords inner.isCompound inner.words
  | and left right =>
    parenthesisedWords left.isDisjunction left.words ++
      .and :: parenthesisedWords right.isDisjunction right.words
  | or left right => left.words ++ .or :: right.words

def operandWords : Operator → Expr → List Token
  | .and, e => parenthesisedWords e.isDisjunction e.words
  | .or, e => e.words

theorem words_join (operator : Operator) (left right : Expr) :
    (operator.join left right).words =
      operandWords operator left ++ operator.token :: operandWords operator right := by
  cases operator <;> rfl

theorem operandWords_join (operator : Operator) (left right : Expr) :
    operandWords operator (operator.join left right) = (operator.join left right).words := by
  cases operator <;> rfl

/-- Its names are words that stand for themselves. -/
def Readable : Expr → Prop
  | always => True
  | feature name => (Token.name name).IsWord ∧ name ≠ "always"
  | not inner => inner.Readable
  | and left right | or left right => left.Readable ∧ right.Readable

end Expr

theorem isWord_of_splits {source : List Char} {found : List Token} (splits : Splits source found) :
    ∀ token ∈ found, token.IsWord := by
  induction splits with
  | done => exact fun _ impossible => by cases impossible
  | blank _ _ ih => exact ih
  | token longest _ ih => exact List.forall_mem_cons.mpr ⟨longest.isWord, ih⟩

theorem readable_of_derives {category : Category} {found : List Token} {e : Expr}
    (derived : Derives category found e) (areWords : ∀ token ∈ found, token.IsWord) :
    e.Readable := by
  induction derived with
  | conjunction _ ih | negation _ ih | operand _ ih => exact ih areWords
  | or _ _ ih ih' | and _ _ ih ih' =>
    rw [List.forall_mem_append, List.forall_mem_cons] at areWords
    exact ⟨ih areWords.1, ih' areWords.2.2⟩
  | not _ ih => exact ih (List.forall_mem_cons.mp areWords).2
  | parenthesised _ ih =>
    rw [List.cons_append, List.forall_mem_cons, List.forall_mem_append] at areWords
    exact ih areWords.2.1
  | star | always => trivial
  | feature noKeyword => exact ⟨areWords _ List.mem_cons_self, noKeyword⟩

/-! ### The written form splits into its tokens -/

/-- No name goes on at the beginning of the text. -/
def Stops (source : List Char) : Prop := ∀ c ∈ source.head?, isNameChar c = false

theorem stops_cons {c : Char} {rest : List Char} :
    Stops (c :: rest) ↔ isNameChar c = false := by
  simp [Stops]

instance : (source : List Char) → Decidable (Stops source)
  | [] => .isTrue fun _ impossible => by cases impossible
  | _ :: _ => decidable_of_iff _ stops_cons.symm

/-- The text splits into the tokens, whatever follows it that does not go on with a name. -/
def Written (text : String) (found : List Token) : Prop :=
  ∀ rest more, Stops rest → Splits rest more → Splits (text.toList ++ rest) (found ++ more)

/-- A token that is no name stands wherever it is written. -/
theorem Splits.sign (token : Token) {rest : List Char} {more : List Token}
    (stops : Stops token.text.toList) (isWord : token.IsWord) (splits : Splits rest more) :
    Splits (token.text.toList ++ rest) (token :: more) := by
  refine .token ?_ splits
  obtain ⟨c, word, shape⟩ := List.exists_cons_of_ne_nil (Token.text_ne_nil isWord)
  have begins := List.prefix_append token.text.toList rest
  rw [shape] at stops
  rw [shape, List.cons_append] at begins ⊢
  exact .of_begins isWord (shape ▸ begins) (stops_cons.mp stops)

theorem takeWhile_of_stops {source : List Char} (stops : Stops source) :
    source.takeWhile isNameChar = [] := by
  cases source with
  | nil => rfl
  | cons c rest => exact List.takeWhile_cons_of_neg (by simp [stops_cons.mp stops])

theorem written_name {name : String} (isWord : (Token.name name).IsWord) :
    Written name [.name name] := by
  intro rest more stops splits
  refine .token (longest_name_iff.mpr ⟨isWord.1, ?_⟩) splits
  change name.toList = (name.toList ++ rest).takeWhile isNameChar
  rw [List.takeWhile_append_of_pos isWord.2, takeWhile_of_stops stops, List.append_nil]

theorem Written.parenthesised {text : String} {found : List Token} (written : Written text found)
    (needed : Bool) :
    Written (Expr.parenthesised needed text) (Expr.parenthesisedWords needed found) := by
  intro rest more stops splits
  cases needed with
  | false => exact written rest more stops splits
  | true =>
    have closed := splits.sign .closing (by decide) trivial
    have inside := written (')' :: rest) _ (stops_cons.mpr (by decide)) closed
    have opened := inside.sign .opening (by decide) trivial
    simpa [Expr.parenthesised, Expr.parenthesisedWords, Token.text] using opened

theorem Written.not {text : String} {found : List Token} (written : Written text found) :
    Written ("!" ++ text) (.not :: found) := by
  intro rest more stops splits
  have negated := (written rest more stops splits).sign .not (by decide) trivial
  rwa [String.toList_append, List.append_assoc]

theorem Operator.mark_toList (operator : Operator) :
    operator.mark.toList = ' ' :: (operator.token.text.toList ++ [' ']) := by
  cases operator <;> decide

/-- The blank in front of an operator ends the name before it. -/
theorem Operator.mark_stops (operator : Operator) (rest : List Char) :
    Stops (operator.mark.toList ++ rest) := by
  rw [operator.mark_toList]
  exact stops_cons.mpr (by decide)

theorem Splits.mark {rest : List Char} {more : List Token} (splits : Splits rest more)
    (operator : Operator) :
    Splits (operator.mark.toList ++ rest) (operator.token :: more) := by
  rw [operator.mark_toList, List.cons_append, List.append_assoc]
  refine .blank (by decide) (.sign operator.token ?_ ?_ (.blank (by decide) splits))
  · cases operator <;> decide
  · cases operator <;> trivial

theorem Written.join (operator : Operator) {text text' : String} {found found' : List Token}
    (written : Written text found) (written' : Written text' found') :
    Written (text ++ operator.mark ++ text') (found ++ operator.token :: found') := by
  intro rest more stops splits
  rw [String.toList_append, String.toList_append, List.append_assoc, List.append_assoc,
    List.append_assoc]
  exact written _ _ (operator.mark_stops _)
    ((written' rest more stops splits).mark operator)

theorem Expr.Readable.written {e : Expr} (readable : e.Readable) : Written e.text e.words := by
  induction e with
  | always => exact fun rest more _ splits => splits.sign .star (by decide) trivial
  | feature name => exact written_name readable.1
  | not inner ih => exact ((ih readable).parenthesised inner.isCompound).not
  | and left right ih ih' =>
    exact .join .and ((ih readable.1).parenthesised left.isDisjunction)
      ((ih' readable.2).parenthesised right.isDisjunction)
  | or left right ih ih' => exact .join .or (ih readable.1) (ih' readable.2)

/-! ### Its tokens are derived for the chains grouped to the left -/

namespace Derives

variable {operator : Operator} {found more : List Token} {e left right : Expr}

theorem single (derived : Derives operator.operands found e) :
    Derives operator.category found e := by
  cases operator with
  | and => exact .negation derived
  | or => exact .conjunction derived

theorem join (chain : Derives operator.category found left)
    (last : Derives operator.operands more right) :
    Derives operator.category (found ++ operator.token :: more) (operator.join left right) := by
  cases operator with
  | and => exact .and chain last
  | or => exact .or chain last

end Derives

namespace Expr

/-- The written form of an operand is a chain, and it goes on with a chain in front of it. -/
structure Chains (operator : Operator) (e : Expr) : Prop where
  first : Derives operator.category (operandWords operator e) e.leftGrouped
  behind : ∀ found left, Derives operator.category found left →
    Derives operator.category (found ++ operator.token :: operandWords operator e)
      (operator.chain left e.leftGrouped)

theorem Chains.of_single {operator : Operator} {e : Expr} (single : operator.heads e = false)
    (derived : Derives operator.operands (operandWords operator e) e.leftGrouped) :
    Chains operator e where
  first := derived.single
  behind found left chain := by
    rw [Operator.chain_of_single ((heads_leftGrouped operator e).trans single)]
    exact chain.join derived

theorem Chains.join {operator : Operator} {left right : Expr} (before : Chains operator left)
    (behind : Chains operator right) : Chains operator (operator.join left right) where
  first := by
    rw [operandWords_join, words_join, leftGrouped_join]
    exact behind.behind _ _ before.first
  behind found first chain := by
    rw [operandWords_join, words_join, leftGrouped_join, ← Operator.chain_assoc,
      ← List.cons_append, ← List.append_assoc]
    exact behind.behind _ _ (before.behind found first chain)

/-- The written form of an expression is derived wherever the expression can stand. -/
structure Stands (e : Expr) : Prop where
  chains : ∀ operator, Chains operator e
  negated : Derives .negation (parenthesisedWords e.isCompound e.words) e.leftGrouped

theorem Stands.of_negation {e : Expr} (simple : e.isCompound = false)
    (derived : Derives .negation e.words e.leftGrouped) : Stands e := by
  have single := simple
  rw [isCompound_eq_heads, Bool.or_eq_false_iff] at single
  have plain : e.isDisjunction = false := (isDisjunction_eq_heads e).trans single.2
  constructor
  · intro operator
    cases operator with
    | and => exact .of_single single.1 (by rwa [operandWords, plain])
    | or => exact .of_single single.2 (.negation derived)
  · rwa [simple]

theorem Stands.join (operator : Operator) {left right : Expr} (before : Stands left)
    (behind : Stands right) : Stands (operator.join left right) := by
  have chain := (before.chains operator).join (behind.chains operator)
  cases operator with
  | and =>
    have other : Chains .or (.and left right) := .of_single rfl chain.first
    refine ⟨fun operator => ?_, .operand (.parenthesised other.first)⟩
    cases operator with
    | and => exact chain
    | or => exact other
  | or =>
    have inside : Derives .operand (.opening :: (Expr.or left right).words ++ [.closing])
      (Expr.or left right).leftGrouped := .parenthesised chain.first
    refine ⟨fun operator => ?_, .operand inside⟩
    cases operator with
    | and => exact .of_single rfl (.operand inside)
    | or => exact chain

theorem Readable.stands {e : Expr} (readable : e.Readable) : Stands e := by
  -- A chain that is an operand without parentheses goes on with the chain in front of it, so the
  -- induction carries both readings of it: alone, and behind whatever stands in front.
  induction e with
  | always => exact .of_negation rfl (.operand .star)
  | feature name => exact .of_negation rfl (.operand (.feature readable.2))
  | not inner ih => exact .of_negation rfl (.not (ih readable).negated)
  | and left right ih ih' => exact .join .and (ih readable.1) (ih' readable.2)
  | or left right ih ih' => exact .join .or (ih readable.1) (ih' readable.2)

/-! ### Reading what was written -/

theorem Readable.parse_text {e : Expr} (readable : e.Readable) :
    Expr.parse e.text = .ok e.leftGrouped := by
  have written := readable.written [] [] (by decide) .done
  rw [List.append_nil, List.append_nil] at written
  exact parse_eq_ok_iff.mpr ⟨e.words, written, (readable.stands.chains .or).first⟩

theorem readable_of_parse {source : String} {e : Expr} (read : Expr.parse source = .ok e) :
    e.Readable := by
  obtain ⟨found, splits, derived⟩ := parse_eq_ok_iff.mp read
  exact readable_of_derives derived (isWord_of_splits splits)

/-- The written form of an expression that was read is read as the same expression, but for its
chains: they are grouped to the left now. That changes neither the written form nor the value, nor
what is asked to find the value. -/
theorem parse_written {source : String} {e : Expr} (read : Expr.parse source = .ok e) :
    ∃ e', Expr.parse e.text = .ok e' ∧ e' = e.leftGrouped ∧
      (∀ other, other = e' ↔ Regroups e other ∧ other.IsLeftGrouped) ∧
      e'.text = e.text ∧
      ∀ holds, e'.evaluate holds = e.evaluate holds ∧ e'.asked holds = e.asked holds := by
  have regroups := regroups_leftGrouped e
  exact ⟨e.leftGrouped, (readable_of_parse read).parse_text, rfl, fun _ => eq_leftGrouped_iff,
    regroups.text, regroups.meaning⟩

theorem nested_written :
    Expr.parse "a&&(b&&!(c||d))" =
      .ok (.and (.feature "a")
        (.and (.feature "b") (.not (.or (.feature "c") (.feature "d"))))) ∧
    Expr.parse "a && b && !(c || d)" =
      .ok (.and (.and (.feature "a") (.feature "b"))
        (.not (.or (.feature "c") (.feature "d")))) := by
  have splits : Splits "a&&(b&&!(c||d))".toList [.name "a", .and, .opening, .name "b", .and, .not,
      .opening, .name "c", .or, .name "d", .closing, .closing] := by
    repeat first | exact .done | refine .of_firstToken? (by rfl) ?_
  have derived : Expr.ofTokens (placedAnywhere [.name "a", .and, .opening, .name "b", .and, .not,
      .opening, .name "c", .or, .name "d", .closing, .closing]) =
        .ok (.and (.feature "a")
          (.and (.feature "b") (.not (.or (.feature "c") (.feature "d"))))) := by cbv
  rw [ofTokens_eq_ok_iff, bare_placedAnywhere] at derived
  have read := parse_eq_ok_iff.mpr ⟨_, splits, derived⟩
  obtain ⟨e', again, rfl, -⟩ := parse_written read
  exact ⟨read, again⟩

end Expr

end SuiteRunner.Feature
