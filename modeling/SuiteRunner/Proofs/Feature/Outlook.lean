import Mathlib.Data.List.Induction
import SuiteRunner.Proofs.Feature.Grammar

/-!
# What may follow some tokens

Behind some tokens of an expression either an operand is due, or an operator or the end, and
some parentheses are open. That is all that decides which tokens may follow: tokens can be
extended to an expression if and only if each of them may follow those before it, and they are
an expression if moreover no operand is due and no parenthesis is open at their end.
-/

namespace SuiteRunner.Feature

inductive Due where
  | operand
  | operator
  deriving DecidableEq, Repr

/-- What some tokens leave open: the columns of the parentheses to be closed, the innermost first,
and what is due. -/
structure Outlook where
  opened : List Nat
  due : Due
  deriving DecidableEq, Repr

namespace Outlook

/-- The outlook in front of an expression. -/
def start : Outlook := ⟨[], .operand⟩

/-- The outlook behind one more token, if that token may follow. -/
def next? : Outlook → PlacedToken → Option Outlook
  | ⟨opened, .operand⟩, ⟨.name _, _⟩ => some ⟨opened, .operator⟩
  | ⟨opened, .operand⟩, ⟨.star, _⟩ => some ⟨opened, .operator⟩
  | ⟨opened, .operand⟩, ⟨.not, _⟩ => some ⟨opened, .operand⟩
  | ⟨opened, .operand⟩, ⟨.opening, column⟩ => some ⟨column :: opened, .operand⟩
  | ⟨opened, .operator⟩, ⟨.and, _⟩ => some ⟨opened, .operand⟩
  | ⟨opened, .operator⟩, ⟨.or, _⟩ => some ⟨opened, .operand⟩
  | ⟨_ :: opened, .operator⟩, ⟨.closing, _⟩ => some ⟨opened, .operator⟩
  | _, _ => none

/-- The outlook behind some tokens, if each of them may follow those before it. -/
def behind? (outlook : Outlook) (placed : List PlacedToken) : Option Outlook :=
  placed.foldlM next? outlook

variable {outlook reached : Outlook} {opened : List Nat} {placed rest : List PlacedToken}

@[simp] theorem behind?_nil (outlook : Outlook) : outlook.behind? [] = some outlook := rfl

@[simp] theorem behind?_cons (outlook : Outlook) (found : PlacedToken)
    (rest : List PlacedToken) :
    outlook.behind? (found :: rest) = (outlook.next? found).bind (·.behind? rest) :=
  List.foldlM_cons

theorem behind?_append (outlook : Outlook) (placed rest : List PlacedToken) :
    outlook.behind? (placed ++ rest) = (outlook.behind? placed).bind (·.behind? rest) :=
  List.foldlM_append

theorem behind?_concat (outlook : Outlook) (placed : List PlacedToken) (found : PlacedToken) :
    outlook.behind? (placed ++ [found]) = (outlook.behind? placed).bind (·.next? found) := by
  rw [behind?_append]
  simp [Option.bind_fun_some]

theorem behind?_of_append (before : outlook.behind? placed = some reached)
    (rest : List PlacedToken) : outlook.behind? (placed ++ rest) = reached.behind? rest := by
  rw [behind?_append, before, Option.bind_some]

/-- Closing all parentheses leaves none open. -/
theorem behind?_closings (opened : List Nat) :
    Outlook.behind? ⟨opened, .operator⟩ (List.replicate opened.length ⟨.closing, 0⟩) =
      some ⟨[], .operator⟩ := by
  induction opened with
  | nil => rfl
  | cons column opened ih =>
    rw [List.length_cons, List.replicate_succ, behind?_cons]
    exact ih

/-! ### Derived tokens -/

/-- Tokens that stand for a tree fulfil the operand that is due. -/
theorem behind?_of_derives {category : Category} {found : List Token} {e : Expr}
    (derived : Derives category found e) (same : bare placed = found) (opened : List Nat) :
    Outlook.behind? ⟨opened, .operand⟩ placed = some ⟨opened, .operator⟩ := by
  -- By induction on the derivation, with the opened parentheses general: an expression of any
  -- category turns a due operand into a due operator and leaves the parentheses as they were.
  induction derived generalizing placed opened with
  | conjunction _ ih => exact ih same opened
  | negation _ ih => exact ih same opened
  | operand _ ih => exact ih same opened
  | or _ _ first last =>
    obtain ⟨used, others, rfl, front, same⟩ := bare_eq_append same
    obtain ⟨column, used', rfl, behind⟩ := bare_eq_cons same
    rw [behind?_of_append (first front opened), behind?_cons]
    exact last behind opened
  | and _ _ first last =>
    obtain ⟨used, others, rfl, front, same⟩ := bare_eq_append same
    obtain ⟨column, used', rfl, behind⟩ := bare_eq_cons same
    rw [behind?_of_append (first front opened), behind?_cons]
    exact last behind opened
  | not _ ih =>
    obtain ⟨column, used, rfl, behind⟩ := bare_eq_cons same
    exact ih behind opened
  | parenthesised _ ih =>
    obtain ⟨used, last, rfl, first, closing⟩ := bare_eq_append same
    obtain ⟨column, used, rfl, inside⟩ := bare_eq_cons first
    obtain ⟨column', _, rfl, none⟩ := bare_eq_cons closing
    cases List.map_eq_nil_iff.mp none
    have within := ih inside (column :: opened)
    have fulfilled : Outlook.behind? ⟨opened, .operand⟩ (⟨.opening, column⟩ :: used) =
        some ⟨column :: opened, .operator⟩ := within
    rw [behind?_of_append fulfilled]
    rfl
  | star | always | feature =>
    obtain ⟨column, _, rfl, none⟩ := bare_eq_cons same
    cases List.map_eq_nil_iff.mp none
    rfl

end Outlook

/-! ### What a reader fails at -/

/-- What is wrong with tokens that a reader refuses where the outlook is this: a token that may not
follow, the end while an operand is due, or the end while a parenthesis is open. -/
inductive Refused (outlook : Outlook) (input : List PlacedToken) : SyntaxError → Prop where
  | token {before after : List PlacedToken} {found : PlacedToken} {reached : Outlook}
      (split : input = before ++ found :: after) (behind : outlook.behind? before = some reached)
      (impossible : reached.next? found = none) :
      Refused outlook input (.unexpectedToken found.token.text found.column)
  | ended {opened : List Nat} (behind : outlook.behind? input = some ⟨opened, .operand⟩) :
      Refused outlook input .unexpectedEnd
  | unclosed {column : Nat} {opened : List Nat}
      (behind : outlook.behind? input = some ⟨column :: opened, .operator⟩) :
      Refused outlook input (.unclosedParenthesis column)

/-- What is wrong behind some tokens is wrong with the whole. -/
theorem Refused.behind {outlook reached : Outlook} {used rest : List PlacedToken}
    {e : SyntaxError} (behind : outlook.behind? used = some reached)
    (refused : Refused reached rest e) : Refused outlook (used ++ rest) e := by
  cases refused with
  | token split behind' impossible =>
    subst split
    refine .token (List.append_assoc _ _ _).symm ?_ impossible
    rw [Outlook.behind?_of_append behind, behind']
  | ended behind' => exact .ended ((Outlook.behind?_of_append behind rest).trans behind')
  | unclosed behind' => exact .unclosed ((Outlook.behind?_of_append behind rest).trans behind')

/-- An answer of a reader where an operand is due: an error says what is wrong, and a reading stops
where it has to. -/
structure Justified {input : List PlacedToken} (stops : List PlacedToken → Prop)
    (answer : Except SyntaxError (Parsed input)) : Prop where
  refused : ∀ e, answer = .error e → ∀ opened, Refused ⟨opened, .operand⟩ input e
  stopped : ∀ parsed, answer = .ok parsed → stops parsed.rest

namespace Justified

variable {input : List PlacedToken} {stops : List PlacedToken → Prop}

theorem of_error {e : SyntaxError} (refused : ∀ opened, Refused ⟨opened, .operand⟩ input e) :
    Justified stops (.error e : Except SyntaxError (Parsed input)) where
  refused := fun _ same => by cases same; exact refused
  stopped := fun _ same => by cases same

theorem of_ok {parsed : Parsed input} (stopped : stops parsed.rest) :
    Justified stops (.ok parsed) where
  refused := fun _ same => by cases same
  stopped := fun _ same => by cases same; exact stopped

end Justified

/-- Where a chain of `&&` operands may end. -/
def EndsConjunction (rest : List PlacedToken) : Prop := NotBefore .and rest

/-- Where a chain of `||` operands may end. -/
def EndsDisjunction (rest : List PlacedToken) : Prop := NotBefore .and rest ∧ NotBefore .or rest

/-- What is wrong with the operand behind a chain and its operator is wrong with the whole. -/
theorem Refused.behind_operator {input rest : List PlacedToken} {left : Parsed input}
    {category : Category} {operator : Token} {column : Nat} {e : SyntaxError}
    (derived : left.Derived category) (found : left.rest = ⟨operator, column⟩ :: rest)
    (joins : ∀ opened, Outlook.next? ⟨opened, .operator⟩ ⟨operator, column⟩ =
      some ⟨opened, .operand⟩)
    (refused : ∀ opened, Refused ⟨opened, .operand⟩ rest e) (opened : List Nat) :
    Refused ⟨opened, .operand⟩ input e := by
  obtain ⟨used, split, chain⟩ := derived
  have fulfilled := Outlook.behind?_of_derives chain rfl opened
  rw [split, found, List.append_cons]
  refine .behind ?_ (refused opened)
  rw [Outlook.behind?_of_append fulfilled, Outlook.behind?_cons, joins]
  rfl

section Parentheses

variable {rest : List PlacedToken} {column : Nat} {inner : Parsed rest}

theorem operand_of_other {other : PlacedToken} {after : List PlacedToken}
    (read : disjunction rest = .ok inner) (found : inner.rest = other :: after)
    (noClosing : other.token ≠ .closing) :
    operand (⟨.opening, column⟩ :: rest) = .error (.unexpected other) := by
  rw [operand, read]
  dsimp only
  split
  next closed => cases found.symm.trans closed; exact absurd rfl noClosing
  next found' => cases found.symm.trans found'; rfl
  next empty => cases found.symm.trans empty

theorem operand_of_end (read : disjunction rest = .ok inner) (ended : inner.rest = []) :
    operand (⟨.opening, column⟩ :: rest) = .error (.unclosedParenthesis column) := by
  rw [operand, read]
  dsimp only
  split
  next closed => cases ended.symm.trans closed
  next found => cases ended.symm.trans found
  next => rfl

/-- Behind a parenthesis and the disjunction in it, that parenthesis is the innermost one. -/
theorem behind?_of_inner (read : disjunction rest = .ok inner) (opened : List Nat) :
    ∃ used, ⟨.opening, column⟩ :: rest = used ++ inner.rest ∧
      Outlook.behind? ⟨opened, .operand⟩ used = some ⟨column :: opened, .operator⟩ := by
  obtain ⟨used, split, derived⟩ := readers_right.1 rest inner read
  refine ⟨⟨.opening, column⟩ :: used, congrArg _ split, ?_⟩
  exact Outlook.behind?_of_derives derived rfl (column :: opened)

end Parentheses

/-- All readers are justified, by induction on the readings that they start. -/
theorem readers_justified :
    (∀ input, Justified EndsDisjunction (disjunction input)) ∧
      (∀ input left, Parsed.Derived left .disjunction → EndsConjunction left.rest →
        Justified EndsDisjunction (disjunctionTail input left)) ∧
      (∀ input, Justified EndsConjunction (conjunction input)) ∧
      (∀ input left, Parsed.Derived left .conjunction →
        Justified EndsConjunction (conjunctionTail input left)) ∧
      (∀ input, Justified (fun _ => True) (negation input)) ∧
      ∀ input, NotBefore .not input → Justified (fun _ => True) (operand input) := by
  obtain ⟨-, -, conjunctions, -, negations, -⟩ := readers_right
  apply disjunction.mutual_induct
  -- Disjunctions and what extends them.
  case case1 =>
    intro input e failed justified
    rw [disjunction, failed]
    exact .of_error (justified.refused e failed)
  case case2 =>
    intro input first read _ justified extended
    rw [disjunction, read]
    obtain ⟨used, split, derived⟩ := conjunctions input first read
    exact extended ⟨used, split, .conjunction derived⟩ (justified.stopped first read)
  case case3 =>
    intro input left column rest found _ e failed justified derived _
    rw [disjunctionTail_of_error found failed]
    exact .of_error (.behind_operator derived found (fun _ => rfl) (justified.refused e failed))
  case case4 =>
    intro input left column rest found used last read justified extended derived _
    rw [disjunctionTail_of_or found read (Nat.lt_trans last.shorter used)]
    exact extended (derived.extend found .or (conjunctions rest last read) _)
      (justified.stopped last read)
  case case5 =>
    intro input left other _ stopped
    rw [disjunctionTail_of_other other]
    exact .of_ok ⟨stopped, other⟩
  -- The same for conjunctions.
  case case6 =>
    intro input e failed justified
    rw [conjunction, failed]
    exact .of_error (justified.refused e failed)
  case case7 =>
    intro input first read _ _ extended
    rw [conjunction, read]
    obtain ⟨used, split, derived⟩ := negations input first read
    exact extended ⟨used, split, .negation derived⟩
  case case8 =>
    intro input left column rest found _ e failed justified derived
    rw [conjunctionTail_of_error found failed]
    exact .of_error (.behind_operator derived found (fun _ => rfl) (justified.refused e failed))
  case case9 =>
    intro input left column rest found used last read _ extended derived
    rw [conjunctionTail_of_and found read (Nat.lt_trans last.shorter used)]
    exact extended (derived.extend found .and (negations rest last read) _)
  case case10 =>
    intro input left other _
    rw [conjunctionTail_of_other other]
    exact .of_ok other
  -- Negations.
  case case11 =>
    intro column rest e failed justified
    rw [negation, failed]
    refine .of_error fun opened => ?_
    have behind : Outlook.behind? ⟨opened, .operand⟩ [⟨.not, column⟩] =
        some ⟨opened, .operand⟩ := rfl
    exact .behind behind (justified.refused e failed opened)
  case case12 =>
    intro column rest inner read _
    rw [negation, read]
    exact .of_ok trivial
  case case13 =>
    intro input other justified
    rw [negation]
    · exact justified other
    · exact other
  -- Operands.
  case case14 =>
    intro _
    rw [operand]
    exact .of_error fun opened => .ended rfl
  case case15 =>
    intro column rest _
    rw [operand]
    exact .of_ok trivial
  case case16 =>
    intro text column rest _
    rw [operand]
    exact .of_ok trivial
  case case17 =>
    intro column rest e failed justified _
    rw [operand, failed]
    refine .of_error fun opened => ?_
    have behind : Outlook.behind? ⟨opened, .operand⟩ [⟨.opening, column⟩] =
        some ⟨column :: opened, .operand⟩ := rfl
    exact .behind behind (justified.refused e failed (column :: opened))
  case case18 =>
    intro column rest inner read column' after closed _ _
    have shorter : after.length < (PlacedToken.mk .opening column :: rest).length := by
      have := inner.shorter
      rw [closed, List.length_cons] at this
      rw [List.length_cons]
      omega
    rw [operand_of_closing read closed shorter]
    exact .of_ok trivial
  case case19 =>
    intro column rest inner read other after noClosing found justified _
    -- The chain inside has ended, so no operator follows, and the parenthesis is not closed.
    obtain ⟨noAnd, noOr⟩ := justified.stopped inner read
    rw [found] at noAnd noOr
    have impossible (opened : List Nat) :
        Outlook.next? ⟨column :: opened, .operator⟩ other = none := by
      obtain ⟨token, column'⟩ := other
      cases token with
      | and => exact absurd rfl (noAnd column' after)
      | or => exact absurd rfl (noOr column' after)
      | closing => exact absurd rfl (noClosing column')
      | _ => rfl
    rw [operand_of_other read found fun same => noClosing other.column (by rw [← same])]
    refine .of_error fun opened => ?_
    obtain ⟨used, split, behind⟩ := behind?_of_inner read opened
    rw [split, found]
    exact .token rfl behind (impossible opened)
  case case20 =>
    intro column rest inner read ended _ _
    rw [operand_of_end read ended]
    refine .of_error fun opened => ?_
    obtain ⟨used, split, behind⟩ := behind?_of_inner read opened
    rw [split, ended, List.append_nil]
    exact .unclosed behind
  case case21 =>
    intro other rest noStar noName noOpening noNot
    have impossible (opened : List Nat) :
        Outlook.next? ⟨opened, .operand⟩ other = none := by
      obtain ⟨token, column⟩ := other
      cases token with
      | star => exact absurd rfl (noStar column)
      | name text => exact absurd rfl (noName text column)
      | opening => exact absurd rfl (noOpening column)
      | not => exact absurd rfl (noNot column rest)
      | _ => rfl
    rw [operand]
    · exact .of_error fun opened => .token (List.nil_append _).symm rfl (impossible opened)
    · exact noStar
    · exact noName
    · exact noOpening

theorem ofTokens_refused {placed : List PlacedToken} {e : SyntaxError}
    (failed : Expr.ofTokens placed = .error e) : Refused .start placed e := by
  unfold Expr.ofTokens at failed
  split at failed
  next failure read =>
    cases failed
    exact (readers_justified.1 placed).refused _ read []
  next parsed read =>
    split at failed
    next => cases failed
    next other after found =>
      cases failed
      obtain ⟨noAnd, noOr⟩ := (readers_justified.1 placed).stopped parsed read
      obtain ⟨used, split, derived⟩ := readers_right.1 placed parsed read
      -- The reader does not stop in front of an operator, and outside of parentheses nothing else
      -- can follow.
      rw [found] at noAnd noOr split
      have impossible : Outlook.next? ⟨[], .operator⟩ other = none := by
        obtain ⟨token, column⟩ := other
        cases token with
        | and => exact absurd rfl (noAnd column after)
        | or => exact absurd rfl (noOr column after)
        | _ => rfl
      exact .token split (Outlook.behind?_of_derives derived rfl []) impossible

/-! ### Extending tokens to an expression -/

/-- Tokens that can be extended to an expression. -/
def Viable (found : List Token) : Prop := ∃ more e, Derives .disjunction (found ++ more) e

/-- Tokens that leave nothing open are an expression, because nothing could be wrong with them. -/
theorem exists_derives_of_behind? {placed : List PlacedToken}
    (behind : Outlook.start.behind? placed = some ⟨[], .operator⟩) :
    ∃ e, Derives .disjunction (bare placed) e := by
  cases read : Expr.ofTokens placed with
  | ok e => exact ⟨e, ofTokens_eq_ok_iff.mp read⟩
  | error e =>
    cases ofTokens_refused read with
    | token split before impossible =>
      rw [split, Outlook.behind?_of_append before, Outlook.behind?_cons, impossible] at behind
      cases behind
    | ended ended => cases behind.symm.trans ended
    | unclosed unclosed => cases behind.symm.trans unclosed

/-- Tokens that fulfil the operand that is due can be extended by closing parentheses. -/
theorem derives_closed {placed : List PlacedToken} {opened : List Nat}
    (behind : Outlook.start.behind? placed = some ⟨opened, .operator⟩) :
    ∃ e, Derives .disjunction (bare placed ++ List.replicate opened.length .closing) e := by
  have closed : Outlook.start.behind? (placed ++ List.replicate opened.length ⟨.closing, 0⟩) =
      some ⟨[], .operator⟩ :=
    (Outlook.behind?_of_append behind _).trans (Outlook.behind?_closings opened)
  obtain ⟨e, derived⟩ := exists_derives_of_behind? closed
  refine ⟨e, ?_⟩
  rwa [bare_append, bare, bare, List.map_replicate] at derived

/-- Tokens can be extended if and only if each of them may follow those before it. -/
theorem viable_iff {placed : List PlacedToken} :
    Viable (bare placed) ↔ ∃ reached, Outlook.start.behind? placed = some reached := by
  constructor
  · rintro ⟨more, e, derived⟩
    have same : bare (placed ++ placedAnywhere more) = bare placed ++ more := by
      rw [bare_append, bare_placedAnywhere]
    have behind := Outlook.behind?_of_derives derived same []
    rw [Outlook.behind?_append] at behind
    obtain ⟨reached, before, -⟩ := Option.bind_eq_some_iff.mp behind
    exact ⟨reached, before⟩
  · rintro ⟨⟨opened, due⟩, behind⟩
    cases due with
    | operator =>
      obtain ⟨e, derived⟩ := derives_closed behind
      exact ⟨_, e, derived⟩
    | operand =>
      -- Any operand will do.
      have fulfilled : Outlook.start.behind? (placed ++ [⟨.star, 0⟩]) =
          some ⟨opened, .operator⟩ := Outlook.behind?_of_append behind _
      obtain ⟨e, derived⟩ := derives_closed fulfilled
      rw [bare_append, List.append_assoc] at derived
      exact ⟨_, e, derived⟩

/-! ### Open parentheses -/

/-- Tokens in which every parenthesis has its partner. -/
inductive Balanced : List Token → Prop where
  | nil : Balanced []
  | plain {token : Token} (noOpening : token ≠ .opening) (noClosing : token ≠ .closing) :
      Balanced [token]
  | append {found more : List Token} (first : Balanced found) (last : Balanced more) :
      Balanced (found ++ more)
  | parenthesised {found : List Token} (inner : Balanced found) :
      Balanced (.opening :: found ++ [.closing])

/-- The columns of the opening parentheses without a partner, the innermost first. -/
inductive Unpaired : List PlacedToken → List Nat → Prop where
  | none {placed : List PlacedToken} (balanced : Balanced (bare placed)) : Unpaired placed []
  | some {before after : List PlacedToken} {column : Nat} {opened : List Nat}
      (outer : Unpaired before opened) (balanced : Balanced (bare after)) :
      Unpaired (before ++ ⟨.opening, column⟩ :: after) (column :: opened)

theorem Unpaired.append {placed more : List PlacedToken} {opened : List Nat}
    (unpaired : Unpaired placed opened) (balanced : Balanced (bare more)) :
    Unpaired (placed ++ more) opened := by
  cases unpaired with
  | none balanced' =>
    refine .none ?_
    rw [bare_append]
    exact balanced'.append balanced
  | some outer balanced' =>
    rw [List.append_assoc, List.cons_append]
    refine .some outer ?_
    rw [bare_append]
    exact balanced'.append balanced

/-- The partner of the innermost parenthesis leaves the others. -/
theorem Unpaired.close {placed : List PlacedToken} {column : Nat} {opened : List Nat}
    (unpaired : Unpaired placed (column :: opened)) (column' : Nat) :
    Unpaired (placed ++ [⟨.closing, column'⟩]) opened := by
  cases unpaired with
  | some outer balanced =>
    rw [List.append_assoc, List.cons_append]
    refine outer.append ?_
    rw [bare_cons, bare_append]
    exact .parenthesised balanced

/-- The outlook has the parentheses without a partner. -/
theorem unpaired_of_behind? {placed : List PlacedToken} {reached : Outlook}
    (behind : Outlook.start.behind? placed = some reached) : Unpaired placed reached.opened := by
  -- By induction from the end, since an outlook is reached token by token; what is due tells which
  -- tokens there can be at all.
  induction placed using List.reverseRecOn generalizing reached with
  | nil =>
    cases behind
    exact .none .nil
  | append_singleton placed found ih =>
    rw [Outlook.behind?_concat] at behind
    obtain ⟨⟨opened, due⟩, before, last⟩ := Option.bind_eq_some_iff.mp behind
    have unpaired := ih before
    obtain ⟨token, column⟩ := found
    have plain {token : Token} (noOpening : token ≠ .opening) (noClosing : token ≠ .closing) :
        Unpaired (placed ++ [⟨token, column⟩]) opened :=
      unpaired.append (.plain noOpening noClosing)
    cases due with
    | operand =>
      cases token with
      | opening =>
        cases last
        exact .some unpaired .nil
      | name | star | not =>
        cases last
        exact plain Token.noConfusion Token.noConfusion
      | and | or | closing => cases last
    | operator =>
      cases token with
      | and | or =>
        cases last
        exact plain Token.noConfusion Token.noConfusion
      | closing =>
        cases opened with
        | nil => cases last
        | cons innermost opened =>
          cases last
          exact unpaired.close column
      | name | star | not | opening => cases last

/-- Where an operand is due, there are no tokens, or the last of them opens a parenthesis or is an
operator. -/
theorem getLast?_of_operand {placed : List PlacedToken} {opened : List Nat}
    (behind : Outlook.start.behind? placed = some ⟨opened, .operand⟩) :
    bare placed = [] ∨
      ∃ last ∈ [Token.and, .or, .not, .opening], (bare placed).getLast? = some last := by
  cases placed using List.reverseRecOn with
  | nil => exact Or.inl rfl
  | append_singleton placed found =>
    right
    rw [Outlook.behind?_concat] at behind
    obtain ⟨⟨before, due⟩, -, last⟩ := Option.bind_eq_some_iff.mp behind
    obtain ⟨token, column⟩ := found
    refine ⟨token, ?_, by rw [bare_append]; exact List.getLast?_concat⟩
    -- A due operand allows a negation or a parenthesis to open, and a due operator one of the two
    -- operators; each other token is either impossible or leaves an operator due.
    cases due with
    | operand =>
      cases token with
      | not | opening => simp
      | _ => cases last
    | operator =>
      cases token with
      | and | or => simp
      | closing => cases before <;> cases last
      | _ => cases last

end SuiteRunner.Feature
