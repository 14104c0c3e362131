import SuiteRunner.Feature.Parser
import SuiteRunner.Proofs.Feature.Tokens

/-!
# Reading follows the grammar

The grammar says of a sequence of tokens which tree it stands for. The readers are right:
what one of them gives is derived from the tokens it used. They are complete: a derived
sequence is used up, unless what follows could continue it, and then the reader of the
chain goes on behind it. So a text is read as a tree if and only if it splits into tokens
that stand for this tree, and there is no other such tree.
-/

namespace SuiteRunner.Feature

/-! ### The grammar -/

inductive Category where
  | disjunction
  | conjunction
  | negation
  | operand
  deriving DecidableEq, Repr

/-- The tokens of a category and their trees. A chain of operands is its first operand, or a
chain with one more operator and operand behind it, so it is grouped to the left. -/
inductive Derives : Category → List Token → Expr → Prop where
  | conjunction {found : List Token} {e : Expr} (single : Derives .conjunction found e) :
      Derives .disjunction found e
  | or {found more : List Token} {left right : Expr} (chain : Derives .disjunction found left)
      (last : Derives .conjunction more right) :
      Derives .disjunction (found ++ .or :: more) (.or left right)
  | negation {found : List Token} {e : Expr} (single : Derives .negation found e) :
      Derives .conjunction found e
  | and {found more : List Token} {left right : Expr} (chain : Derives .conjunction found left)
      (last : Derives .negation more right) :
      Derives .conjunction (found ++ .and :: more) (.and left right)
  | operand {found : List Token} {e : Expr} (plain : Derives .operand found e) :
      Derives .negation found e
  | not {found : List Token} {inner : Expr} (negated : Derives .negation found inner) :
      Derives .negation (.not :: found) (.not inner)
  | parenthesised {found : List Token} {e : Expr} (inner : Derives .disjunction found e) :
      Derives .operand (.opening :: found ++ [.closing]) e
  | star : Derives .operand [.star] .always
  | always : Derives .operand [.name "always"] .always
  | feature {name : String} (noKeyword : name ≠ "always") :
      Derives .operand [.name name] (.feature name)

theorem derives_name (name : String) : Derives .operand [.name name] (Expr.ofName name) := by
  unfold Expr.ofName
  split
  next keyword => exact keyword ▸ .always
  next noKeyword => exact .feature noKeyword

/-- The tokens at some places. -/
def bare (placed : List PlacedToken) : List Token := placed.map (·.token)

@[simp] theorem bare_cons (placed : PlacedToken) (rest : List PlacedToken) :
    bare (placed :: rest) = placed.token :: bare rest := rfl

@[simp] theorem bare_append (placed rest : List PlacedToken) :
    bare (placed ++ rest) = bare placed ++ bare rest := List.map_append

/-! ### Readers are right -/

/-- A reading is derived from the tokens it used. -/
def Parsed.Derived {input : List PlacedToken} (parsed : Parsed input) (category : Category) :
    Prop :=
  ∃ used, input = used ++ parsed.rest ∧ Derives category (bare used) parsed.expr

/-- Whatever a reader gives is derived from the tokens it used. -/
def Right (category : Category) {input : List PlacedToken}
    (answer : Except SyntaxError (Parsed input)) : Prop :=
  ∀ parsed, answer = .ok parsed → parsed.Derived category

theorem Right.of_error {category : Category} {input : List PlacedToken} (e : SyntaxError) :
    Right category (.error e : Except SyntaxError (Parsed input)) :=
  fun _ impossible => by cases impossible

theorem Right.of_ok {category : Category} {input : List PlacedToken} {parsed : Parsed input}
    (derived : parsed.Derived category) : Right category (.ok parsed) :=
  fun _ same => by cases same; exact derived

/-- A chain goes on with an operator and what was read behind it. -/
theorem Parsed.Derived.extend {input rest : List PlacedToken} {left : Parsed input}
    {right : Parsed rest} {chain operands : Category} {operator : Token} {column : Nat}
    {join : Expr → Expr → Expr} (found : left.rest = ⟨operator, column⟩ :: rest)
    (joins : ∀ {found more first last}, Derives chain found first → Derives operands more last →
      Derives chain (found ++ operator :: more) (join first last))
    (derived : left.Derived chain) (derived' : right.Derived operands)
    (shorter : right.rest.length < input.length) :
    Parsed.Derived ⟨join left.expr right.expr, right.rest, shorter⟩ chain := by
  obtain ⟨used, split, first⟩ := derived
  obtain ⟨used', split', last⟩ := derived'
  have rest' : left.rest = ⟨operator, column⟩ :: (used' ++ right.rest) :=
    found.trans (congrArg _ split')
  refine ⟨used ++ ⟨operator, column⟩ :: used', ?_, ?_⟩
  · rw [List.append_assoc, List.cons_append, ← rest']
    exact split
  · rw [bare_append, bare_cons]
    exact joins first last

section Tails

variable {input rest : List PlacedToken} {left : Parsed input} {column : Nat}

theorem disjunctionTail_of_error {e : SyntaxError} (found : left.rest = ⟨.or, column⟩ :: rest)
    (failed : conjunction rest = .error e) : disjunctionTail input left = .error e := by
  rw [disjunctionTail]
  split
  next column' rest' found' =>
    cases found.symm.trans found'
    rw [failed]
  next other => exact absurd found (other column rest)

theorem disjunctionTail_of_or {right : Parsed rest} (found : left.rest = ⟨.or, column⟩ :: rest)
    (read : conjunction rest = .ok right) (shorter : right.rest.length < input.length) :
    disjunctionTail input left =
      disjunctionTail input ⟨.or left.expr right.expr, right.rest, shorter⟩ := by
  rw [disjunctionTail]
  split
  next column' rest' found' =>
    cases found.symm.trans found'
    rw [read]
  next other => exact absurd found (other column rest)

theorem disjunctionTail_of_other (other : ∀ column rest, left.rest ≠ ⟨.or, column⟩ :: rest) :
    disjunctionTail input left = .ok left := by
  rw [disjunctionTail]
  split
  next column rest found => exact absurd found (other column rest)
  next => rfl

theorem conjunctionTail_of_error {e : SyntaxError} (found : left.rest = ⟨.and, column⟩ :: rest)
    (failed : negation rest = .error e) : conjunctionTail input left = .error e := by
  rw [conjunctionTail]
  split
  next column' rest' found' =>
    cases found.symm.trans found'
    rw [failed]
  next other => exact absurd found (other column rest)

theorem conjunctionTail_of_and {right : Parsed rest} (found : left.rest = ⟨.and, column⟩ :: rest)
    (read : negation rest = .ok right) (shorter : right.rest.length < input.length) :
    conjunctionTail input left =
      conjunctionTail input ⟨.and left.expr right.expr, right.rest, shorter⟩ := by
  rw [conjunctionTail]
  split
  next column' rest' found' =>
    cases found.symm.trans found'
    rw [read]
  next other => exact absurd found (other column rest)

theorem conjunctionTail_of_other (other : ∀ column rest, left.rest ≠ ⟨.and, column⟩ :: rest) :
    conjunctionTail input left = .ok left := by
  rw [conjunctionTail]
  split
  next column rest found => exact absurd found (other column rest)
  next => rfl

theorem operand_of_closing {column' : Nat} {after : List PlacedToken} {inner : Parsed rest}
    (read : disjunction rest = .ok inner) (closed : inner.rest = ⟨.closing, column'⟩ :: after)
    (shorter : after.length < (PlacedToken.mk .opening column :: rest).length) :
    operand (⟨.opening, column⟩ :: rest) = .ok ⟨inner.expr, after, shorter⟩ := by
  rw [operand, read]
  dsimp only
  split
  next found => cases found.symm.trans closed; rfl
  next other _ noClosing found => cases found.symm.trans closed; exact absurd rfl (noClosing _)
  next empty => cases empty.symm.trans closed

theorem operand_of_unclosed (column : Nat) {inner : Parsed rest}
    (read : disjunction rest = .ok inner)
    (unclosed : ∀ column' after, inner.rest ≠ ⟨.closing, column'⟩ :: after) :
    ∃ e, operand (⟨.opening, column⟩ :: rest) = .error e := by
  rw [operand, read]
  dsimp only
  split
  next found => exact absurd found (unclosed _ _)
  next => exact ⟨_, rfl⟩
  next => exact ⟨_, rfl⟩

end Tails

/-- All readers are right, by induction on the readings that they start. -/
theorem readers_right :
    (∀ input, Right .disjunction (disjunction input)) ∧
      (∀ input left, Parsed.Derived left .disjunction →
        Right .disjunction (disjunctionTail input left)) ∧
      (∀ input, Right .conjunction (conjunction input)) ∧
      (∀ input left, Parsed.Derived left .conjunction →
        Right .conjunction (conjunctionTail input left)) ∧
      (∀ input, Right .negation (negation input)) ∧
      ∀ input, Right .operand (operand input) := by
  apply disjunction.mutual_induct
  -- Disjunctions and what extends them.
  case case1 =>
    intro input e failed _
    rw [disjunction, failed]
    exact .of_error e
  case case2 =>
    intro input first read _ right extended
    rw [disjunction, read]
    obtain ⟨used, split, derived⟩ := right first read
    exact extended ⟨used, split, .conjunction derived⟩
  case case3 =>
    intro input left column rest found _ e failed _ _
    rw [disjunctionTail_of_error found failed]
    exact .of_error e
  case case4 =>
    intro input left column rest found used last read right extended derived
    rw [disjunctionTail_of_or found read (Nat.lt_trans last.shorter used)]
    exact extended (derived.extend found .or (right last read) _)
  case case5 =>
    intro input left other derived
    rw [disjunctionTail_of_other other]
    exact .of_ok derived
  -- The same for conjunctions.
  case case6 =>
    intro input e failed _
    rw [conjunction, failed]
    exact .of_error e
  case case7 =>
    intro input first read _ right extended
    rw [conjunction, read]
    obtain ⟨used, split, derived⟩ := right first read
    exact extended ⟨used, split, .negation derived⟩
  case case8 =>
    intro input left column rest found _ e failed _ _
    rw [conjunctionTail_of_error found failed]
    exact .of_error e
  case case9 =>
    intro input left column rest found used last read right extended derived
    rw [conjunctionTail_of_and found read (Nat.lt_trans last.shorter used)]
    exact extended (derived.extend found .and (right last read) _)
  case case10 =>
    intro input left other derived
    rw [conjunctionTail_of_other other]
    exact .of_ok derived
  -- Negations.
  case case11 =>
    intro column rest e failed _
    rw [negation, failed]
    exact .of_error e
  case case12 =>
    intro column rest inner read right
    rw [negation, read]
    obtain ⟨used, split, derived⟩ := right inner read
    exact .of_ok ⟨⟨.not, column⟩ :: used, congrArg _ split, .not derived⟩
  case case13 =>
    intro input other right
    rw [negation]
    · intro parsed read
      obtain ⟨used, split, derived⟩ := right parsed read
      exact ⟨used, split, .operand derived⟩
    · exact other
  -- Operands.
  case case14 =>
    rw [operand]
    exact .of_error _
  case case15 =>
    intro column rest
    rw [operand]
    exact .of_ok ⟨[⟨.star, column⟩], rfl, .star⟩
  case case16 =>
    intro text column rest
    rw [operand]
    exact .of_ok ⟨[⟨.name text, column⟩], rfl, derives_name text⟩
  case case17 =>
    intro column rest e failed _
    rw [operand, failed]
    exact .of_error e
  case case18 =>
    intro column rest inner read column' after closed right
    obtain ⟨used, split, derived⟩ := right inner read
    -- What follows the inner tree begins with the closing parenthesis.
    have shorter : after.length < (PlacedToken.mk .opening column :: rest).length := by
      have := inner.shorter
      rw [closed, List.length_cons] at this
      rw [List.length_cons]
      omega
    rw [operand_of_closing read closed shorter]
    refine .of_ok ⟨⟨.opening, column⟩ :: used ++ [⟨.closing, column'⟩], ?_, ?_⟩
    · rw [closed] at split
      simp [← split]
    · rw [bare_append]
      exact .parenthesised derived
  case case19 =>
    intro column rest inner read other after noClosing found _
    obtain ⟨e, failed⟩ := operand_of_unclosed column read fun column' _ closed => by
      cases found.symm.trans closed
      exact noClosing column' rfl
    rw [failed]
    exact .of_error e
  case case20 =>
    intro column rest inner read found _
    obtain ⟨e, failed⟩ := operand_of_unclosed column read fun column' _ closed => by
      cases found.symm.trans closed
    rw [failed]
    exact .of_error e
  case case21 =>
    intro other rest noStar noName noOpening
    rw [operand]
    · exact .of_error _
    · exact noStar
    · exact noName
    · exact noOpening

/-! ### Readers are complete -/

/-- Not followed by some token. -/
def NotBefore (operator : Token) (rest : List PlacedToken) : Prop :=
  ∀ column more, rest ≠ ⟨operator, column⟩ :: more

/-- What the reader of a category makes of tokens that stand for a tree, whatever follows them:
the reader of a chain goes on behind its operands. -/
def Completes : Category → List Token → Expr → Prop
  | .disjunction, found, e => ∀ used rest, bare used = found → NotBefore .and rest →
      ∃ left : Parsed (used ++ rest), left.expr = e ∧ left.rest = rest ∧
        disjunction (used ++ rest) = disjunctionTail (used ++ rest) left
  | .conjunction, found, e => ∀ used rest, bare used = found →
      ∃ left : Parsed (used ++ rest), left.expr = e ∧ left.rest = rest ∧
        conjunction (used ++ rest) = conjunctionTail (used ++ rest) left
  | .negation, found, e => ∀ used rest, bare used = found →
      ∃ parsed : Parsed (used ++ rest), parsed.expr = e ∧ parsed.rest = rest ∧
        negation (used ++ rest) = .ok parsed
  | .operand, found, e => ∀ used rest, bare used = found →
      ∃ parsed : Parsed (used ++ rest), parsed.expr = e ∧ parsed.rest = rest ∧
        operand (used ++ rest) = .ok parsed

theorem Completes.conjunction {found : List Token} {e : Expr}
    (complete : Completes .conjunction found e) {used rest : List PlacedToken}
    (same : bare used = found) (stops : NotBefore .and rest) :
    ∃ parsed : Parsed (used ++ rest), parsed.expr = e ∧ parsed.rest = rest ∧
      Feature.conjunction (used ++ rest) = .ok parsed := by
  obtain ⟨left, expr, behind, read⟩ := complete used rest same
  refine ⟨left, expr, behind, ?_⟩
  rw [read, conjunctionTail_of_other]
  rwa [behind]

theorem Completes.disjunction {found : List Token} {e : Expr}
    (complete : Completes .disjunction found e) {used rest : List PlacedToken}
    (same : bare used = found) (stops : NotBefore .and rest) (stops' : NotBefore .or rest) :
    ∃ parsed : Parsed (used ++ rest), parsed.expr = e ∧ parsed.rest = rest ∧
      Feature.disjunction (used ++ rest) = .ok parsed := by
  obtain ⟨left, expr, behind, read⟩ := complete used rest same stops
  refine ⟨left, expr, behind, ?_⟩
  rw [read, disjunctionTail_of_other]
  rwa [behind]

theorem bare_eq_append {placed : List PlacedToken} {found more : List Token}
    (same : bare placed = found ++ more) :
    ∃ used used', placed = used ++ used' ∧ bare used = found ∧ bare used' = more :=
  List.map_eq_append_iff.mp same

theorem bare_eq_cons {placed : List PlacedToken} {token : Token} {more : List Token}
    (same : bare placed = token :: more) :
    ∃ column rest, placed = ⟨token, column⟩ :: rest ∧ bare rest = more := by
  obtain ⟨⟨token', column⟩, rest, rfl, rfl, others⟩ := List.map_eq_cons_iff.mp same
  exact ⟨column, rest, rfl, others⟩

theorem notBefore_of_operand {input : List PlacedToken} {parsed : Parsed input}
    (read : operand input = .ok parsed) : NotBefore .not input := by
  rintro column more rfl
  rw [operand] at read
  · cases read
  all_goals simp

theorem completes_single {token : Token} {e : Expr}
    (reads : ∀ column rest, ∃ parsed : Parsed (⟨token, column⟩ :: rest), parsed.expr = e ∧
      parsed.rest = rest ∧ operand (⟨token, column⟩ :: rest) = .ok parsed) :
    Completes .operand [token] e := by
  intro used rest same
  obtain ⟨column, _, rfl, none⟩ := bare_eq_cons same
  cases List.map_eq_nil_iff.mp none
  exact reads column rest

theorem completes_name (name : String) :
    Completes .operand [.name name] (Expr.ofName name) :=
  completes_single fun column rest =>
    ⟨⟨Expr.ofName name, rest, Nat.lt_succ_self _⟩, rfl, rfl, by rw [operand]⟩

/-- By induction on the derivation: what stands behind an operator is read after the chain in
front of it. -/
theorem completes_of_derives {category : Category} {found : List Token} {e : Expr}
    (derived : Derives category found e) : Completes category found e := by
  induction derived with
  | @conjunction found e single ih =>
    intro used rest same stops
    obtain ⟨first, expr, behind, read⟩ := ih.conjunction same stops
    refine ⟨first, expr, behind, ?_⟩
    rw [disjunction, read]
  | @or found more left right chain last ih ih' =>
    intro used rest same stops
    obtain ⟨used, others, rfl, first, same⟩ := bare_eq_append same
    obtain ⟨column, used', rfl, second⟩ := bare_eq_cons same
    rw [List.append_assoc, List.cons_append]
    -- The chain in front is read up to the operator, and the operand behind it is read next.
    obtain ⟨left, rfl, found, chained⟩ := ih used (⟨.or, column⟩ :: (used' ++ rest)) first
      fun _ _ impossible => by cases impossible
    obtain ⟨right, rfl, behind, read⟩ := ih'.conjunction second stops
    have shorter : right.rest.length < (used ++ ⟨.or, column⟩ :: (used' ++ rest)).length := by
      have := right.shorter
      simp only [List.length_append, List.length_cons] at this ⊢
      omega
    exact ⟨⟨_, right.rest, shorter⟩, rfl, behind,
      chained.trans (disjunctionTail_of_or found read shorter)⟩
  | @negation found e single ih =>
    intro used rest same
    obtain ⟨first, expr, behind, read⟩ := ih used rest same
    refine ⟨first, expr, behind, ?_⟩
    rw [conjunction, read]
  | @and found more left right chain last ih ih' =>
    intro used rest same
    obtain ⟨used, others, rfl, first, same⟩ := bare_eq_append same
    obtain ⟨column, used', rfl, second⟩ := bare_eq_cons same
    rw [List.append_assoc, List.cons_append]
    obtain ⟨left, rfl, found, chained⟩ := ih used (⟨.and, column⟩ :: (used' ++ rest)) first
    obtain ⟨right, rfl, behind, read⟩ := ih' used' rest second
    have shorter : right.rest.length < (used ++ ⟨.and, column⟩ :: (used' ++ rest)).length := by
      have := right.shorter
      simp only [List.length_append, List.length_cons] at this ⊢
      omega
    exact ⟨⟨_, right.rest, shorter⟩, rfl, behind,
      chained.trans (conjunctionTail_of_and found read shorter)⟩
  | @operand found e plain ih =>
    intro used rest same
    obtain ⟨parsed, expr, behind, read⟩ := ih used rest same
    refine ⟨parsed, expr, behind, ?_⟩
    rw [negation]
    · exact read
    · exact notBefore_of_operand read
  | @not found inner negated ih =>
    intro used rest same
    obtain ⟨column, used, rfl, others⟩ := bare_eq_cons same
    obtain ⟨parsed, rfl, behind, read⟩ := ih used rest others
    rw [List.cons_append]
    refine ⟨(parsed.mapExpr .not).within _ (Nat.le_succ _), rfl, behind, ?_⟩
    rw [negation, read]
  | @parenthesised found e inner ih =>
    intro used rest same
    obtain ⟨used, last, rfl, first, closing⟩ := bare_eq_append same
    obtain ⟨column, used, rfl, others⟩ := bare_eq_cons first
    obtain ⟨column', _, rfl, none⟩ := bare_eq_cons closing
    cases List.map_eq_nil_iff.mp none
    rw [List.append_assoc, List.singleton_append, List.cons_append]
    -- The closing parenthesis ends the chain inside.
    have closed {operator : Token} (other : operator ≠ .closing) :
        NotBefore operator (⟨.closing, column'⟩ :: rest) := by
      rintro _ _ ⟨⟩
      exact other rfl
    obtain ⟨parsed, rfl, behind, read⟩ :=
      ih.disjunction others (closed Token.noConfusion) (closed Token.noConfusion)
    refine ⟨⟨parsed.expr, rest, ?_⟩, rfl, rfl, operand_of_closing read behind _⟩
    simp only [List.length_append, List.length_cons]
    omega
  | star => exact completes_single fun column rest =>
      ⟨⟨.always, rest, Nat.lt_succ_self _⟩, rfl, rfl, by rw [operand]⟩
  | always => exact completes_name "always"
  | @feature name noKeyword =>
    have complete := completes_name name
    rwa [Expr.ofName, if_neg noKeyword] at complete

/-! ### Whole expressions -/

/-- Some places for tokens. -/
def placedAnywhere (found : List Token) : List PlacedToken := found.map (⟨·, 0⟩)

theorem bare_placedAnywhere (found : List Token) : bare (placedAnywhere found) = found := by
  rw [bare, placedAnywhere, List.map_map]
  exact List.map_id found

theorem ofTokens_eq_ok_iff {placed : List PlacedToken} {e : Expr} :
    Expr.ofTokens placed = .ok e ↔ Derives .disjunction (bare placed) e := by
  constructor
  · intro read
    unfold Expr.ofTokens at read
    split at read
    next => cases read
    next parsed readFirst =>
      split at read
      next all =>
        cases read
        obtain ⟨used, split, derived⟩ := readers_right.1 placed parsed readFirst
        rw [all, List.append_nil] at split
        exact split ▸ derived
      next => cases read
  · intro derived
    have nothing (operator : Token) : NotBefore operator [] :=
      fun _ _ impossible => by cases impossible
    have complete := (completes_of_derives derived).disjunction (rfl : bare placed = bare placed)
      (nothing .and) (nothing .or)
    rw [List.append_nil] at complete
    obtain ⟨parsed, rfl, behind, read⟩ := complete
    unfold Expr.ofTokens
    rw [read]
    dsimp only
    rw [behind]

example : Expr.ofTokens (placedAnywhere
      [.name "a", .and, .name "b", .or, .not, .name "c", .and, .name "always"]) =
    .ok (.or (.and (.feature "a") (.feature "b")) (.and (.not (.feature "c")) .always)) := by
  cbv

theorem parse_eq_ok_iff {source : String} {e : Expr} :
    Expr.parse source = .ok e ↔
      ∃ found, Splits source.toList found ∧ Derives .disjunction found e := by
  unfold Expr.parse tokens
  constructor
  · intro read
    split at read
    next => cases read
    next placed split => exact ⟨_, tokensFrom_splits split, ofTokens_eq_ok_iff.mp read⟩
  · rintro ⟨found, splits, derived⟩
    obtain ⟨placed, read, same⟩ := tokensFrom_of_splits 1 splits
    rw [read]
    rw [← same] at derived
    exact ofTokens_eq_ok_iff.mpr derived

/-- Tokens stand for one tree at most, because they are read as it. -/
theorem Derives.unique {found : List Token} {e e' : Expr} (derived : Derives .disjunction found e)
    (derived' : Derives .disjunction found e') : e = e' := by
  rw [← bare_placedAnywhere found] at derived derived'
  have read := ofTokens_eq_ok_iff.mpr derived
  rw [ofTokens_eq_ok_iff.mpr derived'] at read
  exact (Except.ok.inj read).symm

/-- A text is read as a tree if and only if it splits into tokens that stand for the tree. There is
no other such split, no other such tree, and every other text is refused. -/
theorem Expr.parse_follows_grammar (source : String) :
    (∀ e, Expr.parse source = .ok e ↔
      ∃ found, Splits source.toList found ∧ Derives .disjunction found e) ∧
    (∀ found found', Splits source.toList found → Splits source.toList found' →
      found = found') ∧
    (∀ found e e', Derives .disjunction found e → Derives .disjunction found e' → e = e') ∧
    ((∃ e, Expr.parse source = .ok e) ∨
      ∃ error, Expr.parse source = .error error ∧
        ∀ found e, Splits source.toList found → ¬ Derives .disjunction found e) := by
  refine ⟨fun e => parse_eq_ok_iff, fun found found' => Splits.unique,
    fun found e e' => Derives.unique, ?_⟩
  cases read : Expr.parse source with
  | ok e => exact Or.inl ⟨e, rfl⟩
  | error e =>
    refine Or.inr ⟨e, rfl, fun found tree splits derived => ?_⟩
    rw [parse_eq_ok_iff.mpr ⟨found, splits, derived⟩] at read
    cases read

end SuiteRunner.Feature
