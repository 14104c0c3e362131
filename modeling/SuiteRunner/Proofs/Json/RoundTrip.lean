import Mathlib.Data.List.Basic
import SuiteRunner.Json.Reader
import SuiteRunner.Proofs.Text.Numerals

/-!
# Reading what was written

The compact form of a value is one line of text, and reading it gives the value back. The
characters fall into the tokens of the value whatever follows them, as long as it does not
continue a number; and the tokens of a value take the machine from where the value must
come to where it is complete, whatever is on the stack.
-/

namespace SuiteRunner.Json

/-- Induction on values: of an array or object, everything inside it may be used. -/
theorem Value.induct {motive : Value → Prop} (null : motive .null)
    (boolean : ∀ value, motive (.boolean value)) (number : ∀ n, motive (.number n))
    (string : ∀ text, motive (.string text))
    (array : ∀ items, (∀ item ∈ items, motive item) → motive (.array items))
    (object : ∀ fields, (∀ field ∈ fields, motive field.2) → motive (.object fields)) :
    ∀ value, motive value :=
  @Value.rec motive (fun items => ∀ item ∈ items, motive item)
    (fun fields => ∀ field ∈ fields, motive field.2) (fun field => motive field.2)
    null boolean number string array object
    (fun _ member => absurd member List.not_mem_nil)
    (fun _ _ head tail => List.forall_mem_cons.mpr ⟨head, tail⟩)
    (fun _ member => absurd member List.not_mem_nil)
    (fun _ _ head tail => List.forall_mem_cons.mpr ⟨head, tail⟩)
    (fun _ _ value => value)

/-! ### Strings -/

theorem upToQuote?_plain {c : Char} (noQuote : c ≠ '"') (noEscape : c ≠ '\\') (rest : List Char) :
    upToQuote? (c :: rest) = (upToQuote? rest).map fun (body, after) => (c :: body, after) :=
  upToQuote?.eq_4 c rest noQuote fun _ _ escape => absurd escape noEscape

theorem hexDigit_plain : ∀ n < 16, hexDigit n ≠ '"' ∧ hexDigit n ≠ '\\' ∧ hexDigit n ≠ '\n' := by
  decide

theorem codeUnit?_hexDigit :
    ∀ n < 0x20, codeUnit? ['0', '0', hexDigit (n / 16), hexDigit (n % 16)] = some n := by
  decide

/-- No part of an escaped character is taken for the closing quote. -/
theorem upToQuote?_escapedChar (c : Char) (rest : List Char) :
    upToQuote? (escapedChar c ++ rest) =
      (upToQuote? rest).map fun (body, after) => (escapedChar c ++ body, after) := by
  unfold escapedChar
  split
  -- A control character is written as an escape of six characters, and any other one as itself; the
  -- two hexadecimal digits are plain, so the scan goes over them.
  case h_8 noQuote noEscape _ _ _ _ _ =>
    split
    next control =>
      obtain ⟨noQuote, noEscape, -⟩ := hexDigit_plain (c.toNat / 16) (by omega)
      obtain ⟨noQuote', noEscape', -⟩ := hexDigit_plain (c.toNat % 16) (by omega)
      simp only [List.cons_append, List.nil_append, upToQuote?]
      rw [upToQuote?_plain (by decide) (by decide), upToQuote?_plain (by decide) (by decide),
        upToQuote?_plain noQuote noEscape, upToQuote?_plain noQuote' noEscape']
      simp only [Option.map_map]
      rfl
    next => exact upToQuote?_plain noQuote noEscape rest
  all_goals rfl

/-- Escaping a character is undone. -/
theorem unescape?_escapedChar (c : Char) (rest : List Char) :
    unescape? (escapedChar c ++ rest) = (c :: ·) <$> unescape? rest := by
  unfold escapedChar
  split
  -- The code unit of a control character is none of a pair, so it is read for itself.
  case h_8 noQuote noEscape _ _ _ _ _ =>
    split
    next control =>
      have high : isHighSurrogate c.toNat = false := by
        simp only [isHighSurrogate, Bool.and_eq_false_iff, decide_eq_false_iff_not]
        omega
      have low : isLowSurrogate c.toNat = false := by
        simp only [isLowSurrogate, Bool.and_eq_false_iff, decide_eq_false_iff_not]
        omega
      simp only [List.cons_append, List.nil_append, unescape?, codeUnit?_hexDigit _ control,
        Option.bind_eq_bind, Option.bind_some, high, low, Char.ofNat_toNat]
      rfl
    next printable =>
      rw [List.singleton_append, unescape?.eq_4]
      · rw [if_neg (not_or.mpr ⟨noEscape, printable⟩)]
      · exact fun _ _ _ _ _ escape => absurd escape noEscape
      · exact fun _ _ escape => absurd escape noEscape
  all_goals rfl

theorem upToQuote?_escaped (text rest : List Char) :
    upToQuote? (text.flatMap escapedChar ++ '"' :: rest) =
      some (text.flatMap escapedChar, rest) := by
  induction text with
  | nil => rfl
  | cons c text ih =>
    rw [List.flatMap_cons, List.append_assoc, upToQuote?_escapedChar, ih]
    rfl

theorem unescape?_escaped (text : List Char) :
    unescape? (text.flatMap escapedChar) = some text := by
  induction text with
  | nil => rfl
  | cons c text ih =>
    rw [List.flatMap_cons, unescape?_escapedChar, ih]
    rfl

/-- The other ways to escape a character are undone as well. -/
example : unescape? ['\\', 'u', 'D', '8', '3', 'd', '\\', 'u', 'd', 'e', '0', '0', '\\', '/'] =
    some [Char.ofNat 0x1F600, '/'] := by
  decide

/-! ### Numbers -/

/-- The text does not continue a number that stands in front of it. -/
def Delimited (rest : List Char) : Prop := ∀ c ∈ rest.head?, c.isDigit = false

theorem head?_toDigits_ne_zero {n : Nat} (positive : 0 < n) :
    (Nat.toDigits 10 n).head? ≠ some '0' := by
  induction n using Nat.strongRecOn with
  | ind n ih =>
    rw [Nat.toDigits_eq_if (by decide)]
    split
    next small =>
      rw [List.head?_cons, Ne, Option.some.injEq, Nat.digitChar_eq_zero]
      omega
    next large =>
      rw [List.head?_append_of_ne_nil _ Nat.toDigits_ne_nil]
      exact ih (n / 10) (Nat.div_lt_self positive (by decide)) (by omega)

/-- A number in decimal digits is read back. -/
theorem natural?_toDigits (n : Nat) {rest : List Char} (free : Delimited rest) :
    natural? (Nat.toDigits 10 n ++ rest) = some (n, rest) := by
  have digits : ∀ c ∈ Nat.toDigits 10 n, c.isDigit = true := fun c member =>
    Nat.isDigit_of_mem_toDigits (by decide) (by decide) member
  have stops : rest.takeWhile Char.isDigit = [] ∧ rest.dropWhile Char.isDigit = rest := by
    cases rest with
    | nil => exact ⟨rfl, rfl⟩
    | cons c rest =>
      have noDigit : ¬ c.isDigit = true := by simp [free c rfl]
      exact ⟨List.takeWhile_cons_of_neg noDigit, List.dropWhile_cons_of_neg noDigit⟩
  have taken : (Nat.toDigits 10 n ++ rest).takeWhile Char.isDigit = Nat.toDigits 10 n := by
    rw [List.takeWhile_append_of_pos digits, stops.1, List.append_nil]
  have dropped : (Nat.toDigits 10 n ++ rest).dropWhile Char.isDigit = rest := by
    rw [List.dropWhile_append_of_pos digits, stops.2]
  unfold natural?
  rw [taken, dropped]
  split
  next none => exact absurd none Nat.toDigits_ne_nil
  next more zero =>
    -- Only the number zero begins with the digit zero.
    obtain rfl : n = 0 := by
      by_contra positive
      exact head?_toDigits_ne_zero (Nat.pos_of_ne_zero positive) (by rw [zero]; rfl)
    cases (Nat.toDigits_zero 10).symm.trans zero
    rfl
  next => rw [Nat.ofDigitChars_ten_toDigits]

/-! ### Tokens -/

mutual

/-- The tokens of a value, written without blanks. -/
def Value.tokens : Value → List Token
  | .null => [.scalar .null]
  | .boolean value => [.scalar (.boolean value)]
  | .number n => [.scalar (.number n)]
  | .string text => [.string text]
  | .array items => .beginArray :: ([.comma].intercalate (itemTokens items) ++ [.endArray])
  | .object fields => .beginObject :: ([.comma].intercalate (fieldTokens fields) ++ [.endObject])

def itemTokens : List Value → List (List Token)
  | [] => []
  | item :: items => item.tokens :: itemTokens items

def fieldTokens : List (String × Value) → List (List Token)
  | [] => []
  | (name, value) :: fields => (.string name :: .colon :: value.tokens) :: fieldTokens fields

end

theorem itemTokens_eq (items : List Value) : itemTokens items = items.map Value.tokens := by
  induction items with
  | nil => rfl
  | cons item items ih => rw [itemTokens, ih, List.map_cons]

theorem fieldTokens_eq (fields : List (String × Value)) :
    fieldTokens fields =
      fields.map fun field => .string field.1 :: .colon :: field.2.tokens := by
  induction fields with
  | nil => rfl
  | cons field fields ih => rw [fieldTokens, ih, List.map_cons]

theorem compactItems_eq (items : List Value) : compactItems items = items.map compact := by
  induction items with
  | nil => rfl
  | cons item items ih => rw [compactItems, ih, List.map_cons]

theorem compactFields_eq (fields : List (String × Value)) :
    compactFields fields = fields.map fun field => quoted field.1 ++ ":" ++ compact field.2 := by
  induction fields with
  | nil => rfl
  | cons field fields ih => rw [compactFields, ih, List.map_cons]

theorem tokens?_of_first {c : Char} {text after : List Char} {token : Token}
    (notBlank : isBlank c = false) (found : firstToken? (c :: text) = some (token, after)) :
    tokens? (c :: text) = (token :: ·) <$> tokens? after := by
  rw [tokens?.eq_def]
  simp only [notBlank, Bool.false_eq_true, if_false]
  split
  next missing => cases missing.symm.trans found
  next token' after' found' =>
    cases found'.symm.trans found
    rfl

/-- In front of anything that does not continue a number, the text is these tokens. -/
def FallsInto (text : List Char) (found : List Token) : Prop :=
  ∀ rest, Delimited rest → tokens? (text ++ rest) = (found ++ ·) <$> tokens? rest

theorem firstToken?_quoted (text : String) (rest : List Char) :
    firstToken? ((quoted text).toList ++ rest) = some (.string text, rest) := by
  have shape : (quoted text).toList ++ rest =
      '"' :: (text.toList.flatMap escapedChar ++ '"' :: rest) := by
    simp [quoted]
  rw [shape, firstToken?]
  simp only [upToQuote?_escaped, unescape?_escaped, Option.bind_eq_bind, Option.bind_some,
    String.ofList_toList]
  rfl

theorem tokens?_quoted (text : String) (rest : List Char) :
    tokens? ((quoted text).toList ++ rest) = (.string text :: ·) <$> tokens? rest := by
  have found := firstToken?_quoted text rest
  have shape : (quoted text).toList ++ rest =
      '"' :: (text.toList.flatMap escapedChar ++ '"' :: rest) := by
    simp [quoted]
  rw [shape] at found ⊢
  exact tokens?_of_first (by decide) found

theorem notBlank_of_isDigit {c : Char} (digit : c.isDigit = true) : isBlank c = false := by
  rw [← Bool.not_eq_true]
  intro blank
  simp only [isBlank, Bool.or_eq_true, beq_iff_eq] at blank
  rcases blank with ((rfl | rfl) | rfl) | rfl <;> exact absurd digit (by decide)

/-- A digit begins a number. -/
theorem firstToken?_of_isDigit {c : Char} (digit : c.isDigit = true) (rest : List Char) :
    firstToken? (c :: rest) =
      (natural? (c :: rest)).map fun (n, after) => (.scalar (.number n), after) := by
  unfold firstToken?
  split
  case h_12 =>
    cases natural? (c :: rest) <;> rfl
  -- No other token begins with a digit.
  all_goals
    next shape =>
      cases shape
      exact absurd digit (by decide)

theorem fallsInto_number (n : Int) : FallsInto (toString n).toList [.scalar (.number n)] := by
  intro rest free
  cases n with
  | ofNat n =>
    have shape : (toString (Int.ofNat n)).toList = Nat.toDigits 10 n := by
      change (toString n).toList = _
      rw [Nat.toString_eq_ofList_toDigits, String.toList_ofList]
    -- What follows a number is no digit, so the number is read as far as it was written.
    have read := natural?_toDigits n free
    rw [shape]
    obtain ⟨c, more, first⟩ := List.exists_cons_of_ne_nil (Nat.toDigits_ne_nil (b := 10) (n := n))
    have digit : c.isDigit = true := by
      refine Nat.isDigit_of_mem_toDigits (b := 10) (n := n) (by decide) (by decide) ?_
      rw [first]
      exact List.mem_cons_self
    rw [first, List.cons_append] at read ⊢
    refine tokens?_of_first (notBlank_of_isDigit digit) ?_
    rw [firstToken?_of_isDigit digit, read]
    rfl
  | negSucc n =>
    have shape : (toString (Int.negSucc n)).toList = '-' :: Nat.toDigits 10 (n + 1) := by
      change ("-" ++ toString (n + 1)).toList = _
      simp
    rw [shape, List.cons_append]
    refine tokens?_of_first (by decide) ?_
    rw [firstToken?, natural?_toDigits (n + 1) free]
    rfl

theorem delimited_cons {c : Char} (noDigit : c.isDigit = false) (rest : List Char) :
    Delimited (c :: rest) := by
  intro first member
  cases member
  exact noDigit

/-- Pieces with commas between them fall into the tokens of the pieces, likewise. -/
theorem fallsInto_intercalate {α : Type} {text : α → List Char} {found : α → List Token}
    (items : List α) (falls : ∀ item ∈ items, FallsInto (text item) (found item)) :
    FallsInto ([','].intercalate (items.map text)) ([.comma].intercalate (items.map found)) := by
  induction items with
  | nil =>
    intro rest free
    simp [List.intercalate]
  | cons item items ih =>
    obtain ⟨head, tail⟩ := List.forall_mem_cons.mp falls
    cases items with
    | nil => simpa [List.intercalate] using head
    | cons next items =>
      intro rest free
      -- A comma ends whatever stands before it, so each item falls into its tokens by itself.
      have comma := delimited_cons (c := ',') (by decide)
        ([','].intercalate ((next :: items).map text) ++ rest)
      simp only [List.map_cons, List.intercalate_cons_cons, List.append_assoc] at ih comma ⊢
      rw [List.singleton_append, head _ comma, tokens?_of_first (by decide) rfl, ih tail rest free]
      simp [Function.comp_def]

theorem toList_compact_array (items : List Value) (rest : List Char) :
    (compact (.array items)).toList ++ rest =
      '[' :: ([','].intercalate (items.map (compact · |>.toList)) ++ ']' :: rest) := by
  simp [compact, compactItems_eq, Function.comp_def]

theorem toList_compact_object (fields : List (String × Value)) (rest : List Char) :
    (compact (.object fields)).toList ++ rest =
      '\x7b' :: ([','].intercalate (fields.map fun field =>
        (quoted field.1).toList ++ ':' :: (compact field.2).toList) ++ '\x7d' :: rest) := by
  simp [compact, compactFields_eq, Function.comp_def]

/-- The compact form of a value falls into the tokens of the value. -/
theorem fallsInto_compact (value : Value) : FallsInto (compact value).toList value.tokens := by
  induction value using Value.induct with
  | null => exact fun rest free => tokens?_of_first (by decide) rfl
  | boolean value => cases value <;> exact fun rest free => tokens?_of_first (by decide) rfl
  | number n => exact fallsInto_number n
  | string text => exact fun rest free => tokens?_quoted text rest
  | array items ih =>
    intro rest free
    have inside := fallsInto_intercalate items ih (']' :: rest) (delimited_cons (by decide) rest)
    rw [toList_compact_array, tokens?_of_first (by decide) rfl, inside,
      tokens?_of_first (by decide) rfl, Value.tokens, itemTokens_eq]
    simp [Function.comp_def]
  | object fields ih =>
    intro rest free
    have falls : ∀ field ∈ fields, FallsInto
        ((quoted field.1).toList ++ ':' :: (compact field.2).toList)
        (.string field.1 :: .colon :: field.2.tokens) := by
      intro field member rest free
      rw [List.append_assoc, tokens?_quoted, List.cons_append, tokens?_of_first (by decide) rfl,
        ih field member rest free]
      simp [Function.comp_def]
    have inside := fallsInto_intercalate fields falls ('\x7d' :: rest)
      (delimited_cons (by decide) rest)
    rw [toList_compact_object, tokens?_of_first (by decide) rfl, inside,
      tokens?_of_first (by decide) rfl, Value.tokens, fieldTokens_eq]
    simp [Function.comp_def]

/-! ### The machine -/

/-- The tokens complete the value wherever one must come. -/
def Completes (value : Value) : Prop :=
  ∀ first frames, value.tokens.foldlM step (.value first frames) = some (.behind value frames)

/-- Items with commas between them and a closing bracket complete an array that has begun. -/
theorem foldlM_step_items {items : List Value} {item : Value}
    (complete : ∀ other ∈ item :: items, Completes other) (before : List Value) (first : Bool)
    (frames : List Frame) :
    List.foldlM step (.value first (.array before :: frames))
        ([.comma].intercalate ((item :: items).map Value.tokens) ++ [.endArray]) =
      some (.behind (.array (before ++ item :: items)) frames) := by
  -- By induction on the items behind the first one, with what was read before left general, since
  -- each item moves there.
  induction items generalizing item before first with
  | nil =>
    rw [List.map_singleton, List.intercalate_singleton, List.foldlM_append,
      complete item List.mem_cons_self]
    rfl
  | cons next items ih =>
    obtain ⟨head, tail⟩ := List.forall_mem_cons.mp complete
    have others := ih tail (before ++ [item]) false
    rw [List.append_assoc, List.singleton_append] at others
    rw [List.map_cons, List.map_cons, List.intercalate_cons_cons, List.append_assoc,
      List.append_assoc, List.foldlM_append, head]
    exact others

/-- Fields with commas between them and a closing brace complete an object that has begun. -/
theorem foldlM_step_fields {fields : List (String × Value)} {field : String × Value}
    (complete : ∀ other ∈ field :: fields, Completes other.2) (before : List (String × Value))
    (first : Bool) (frames : List Frame) :
    List.foldlM step (.name first before frames)
        ([.comma].intercalate ((field :: fields).map fun field =>
          .string field.1 :: .colon :: field.2.tokens) ++ [.endObject]) =
      some (.behind (.object (before ++ field :: fields)) frames) := by
  -- As for the items, with a name and a colon in front of each value.
  induction fields generalizing field before first with
  | nil =>
    rw [List.map_singleton, List.intercalate_singleton, List.foldlM_append]
    change (List.foldlM step (.value false (.object before field.1 :: frames)) _ >>= _) = _
    rw [complete field List.mem_cons_self]
    rfl
  | cons next fields ih =>
    obtain ⟨head, tail⟩ := List.forall_mem_cons.mp complete
    have others := ih tail (before ++ [field]) false
    rw [List.append_assoc, List.singleton_append] at others
    rw [List.map_cons, List.map_cons, List.intercalate_cons_cons, List.append_assoc,
      List.append_assoc, List.foldlM_append]
    change (List.foldlM step (.value false (.object before field.1 :: frames)) _ >>= _) = _
    rw [head]
    exact others

theorem completes (value : Value) : Completes value := by
  -- By induction on the value: the items and the fields of a container complete their frames, since
  -- each of them completes its own.
  induction value using Value.induct with
  | null => exact fun first frames => rfl
  | boolean value => exact fun first frames => rfl
  | number n => exact fun first frames => rfl
  | string text => exact fun first frames => rfl
  | array items ih =>
    intro first frames
    rw [Value.tokens, itemTokens_eq]
    cases items with
    | nil => rfl
    | cons item items => exact foldlM_step_items ih [] true frames
  | object fields ih =>
    intro first frames
    rw [Value.tokens, fieldTokens_eq]
    cases fields with
    | nil => rfl
    | cons field fields => exact foldlM_step_fields ih [] true frames

/-- Reading the compact form of a value gives the value back. -/
theorem read?_compact (value : Value) : read? (compact value) = some value := by
  have free : Delimited [] := fun c member => by cases member
  have found := fallsInto_compact value [] free
  rw [List.append_nil, tokens?] at found
  unfold read?
  rw [found]
  simp [completes value false []]

/-! ### One line -/

theorem newline_not_mem_escapedChar (c : Char) : '\n' ∉ escapedChar c := by
  unfold escapedChar
  split
  case h_8 noBreak _ _ _ _ =>
    split
    next control =>
      obtain ⟨-, -, high⟩ := hexDigit_plain (c.toNat / 16) (by omega)
      obtain ⟨-, -, low⟩ := hexDigit_plain (c.toNat % 16) (by omega)
      simp [high.symm, low.symm]
    next => exact fun member => noBreak (List.mem_singleton.mp member).symm
  all_goals decide

theorem newline_not_mem_quoted (text : String) : '\n' ∉ (quoted text).toList := by
  simp [quoted, newline_not_mem_escapedChar]

theorem newline_not_mem_intercalate {pieces : List (List Char)}
    (free : ∀ piece ∈ pieces, '\n' ∉ piece) : '\n' ∉ [','].intercalate pieces := by
  induction pieces with
  | nil => simp [List.intercalate]
  | cons piece pieces ih =>
    obtain ⟨head, tail⟩ := List.forall_mem_cons.mp free
    cases pieces with
    | nil => simpa [List.intercalate] using head
    | cons next pieces =>
      rw [List.intercalate_cons_cons]
      simp [head, ih tail]

/-- The compact form of a value has no line break. -/
theorem newline_not_mem_compact (value : Value) : '\n' ∉ (compact value).toList := by
  induction value using Value.induct with
  | null => decide
  | boolean value => cases value <;> decide
  | number n => exact Text.not_mem_toString_int (by decide) (by decide) n
  | string text => exact newline_not_mem_quoted text
  | array items ih =>
    have inside := newline_not_mem_intercalate (List.forall_mem_map.mpr ih)
    rw [← List.append_nil (compact _).toList, toList_compact_array]
    simpa using inside
  | object fields ih =>
    have pieces : ∀ field ∈ fields,
        '\n' ∉ (quoted field.1).toList ++ ':' :: (compact field.2).toList := fun field member => by
      simp [newline_not_mem_quoted, ih field member]
    have inside := newline_not_mem_intercalate (List.forall_mem_map.mpr pieces)
    rw [← List.append_nil (compact _).toList, toList_compact_object]
    simpa using inside

end SuiteRunner.Json
