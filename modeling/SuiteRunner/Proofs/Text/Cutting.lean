import Mathlib.Data.List.TakeWhile
import SuiteRunner.Text.Basic

/-!
# Texts cut at separators, into lines, and at their blanks

Cutting a text that is put together of two parts at a separator is cutting the parts. Lines are
the pieces between line feeds, less a carriage return in front of one; so a text whose last line
has ended gives its lines whatever is put behind it, and they stay in front of the lines of that.
Trimming takes blanks only.
-/

namespace SuiteRunner.Text

/-! ### Pieces -/

section

variable {separator : Char}

/-- Cutting a text is cutting what is in front of a separator and what is behind it. -/
theorem split_append_cons (cs rest : List Char) :
    split separator (cs ++ separator :: rest) = split separator cs ++ split separator rest := by
  induction cs with
  | nil => simp [split]
  | cons c cs ih =>
    rw [List.cons_append, split, split, ih]
    split
    · rfl
    · cases pieces : split separator cs with
      | nil => exact absurd pieces (split_ne_nil separator cs)
      | cons piece pieces => rfl

theorem split_of_not_mem {piece : List Char} (whole : separator ∉ piece) :
    split separator piece = [piece] := by
  induction piece with
  | nil => rfl
  | cons c piece ih =>
    simp only [List.mem_cons, not_or] at whole
    rw [split, if_neg (Ne.symm whole.1), ih whole.2]

theorem split_append {piece : List Char} (whole : separator ∉ piece) (rest : List Char) :
    split separator (piece ++ separator :: rest) = piece :: split separator rest := by
  rw [split_append_cons, split_of_not_mem whole, List.singleton_append]

theorem split_intercalate {pieces : List (List Char)} (nonempty : pieces ≠ [])
    (whole : ∀ piece ∈ pieces, separator ∉ piece) :
    split separator ([separator].intercalate pieces) = pieces := by
  induction pieces with
  | nil => exact absurd rfl nonempty
  | cons piece pieces ih =>
    have first := whole piece List.mem_cons_self
    have others := fun piece member => whole piece (List.mem_cons_of_mem _ member)
    cases pieces with
    | nil => rw [List.intercalate_singleton, split_of_not_mem first]
    | cons next pieces =>
      rw [List.intercalate_cons_cons, List.append_assoc, List.singleton_append,
        split_append first, ih (List.cons_ne_nil _ _) others]

/-- The pieces, put together again, are the text. -/
theorem intercalate_split (separator : Char) (cs : List Char) :
    [separator].intercalate (split separator cs) = cs := by
  induction cs with
  | nil => rfl
  | cons c cs ih =>
    -- What is behind the first character has a first piece, and either the separator ends an empty
    -- piece in front of that or the character joins it.
    obtain ⟨piece, pieces, cut⟩ := List.exists_cons_of_ne_nil (split_ne_nil separator cs)
    rw [cut] at ih
    rw [split]
    split
    next same => rw [cut, List.intercalate_cons_cons, ih, same]; rfl
    next =>
      rw [cut]
      cases pieces with
      | nil =>
        rw [List.intercalate_singleton] at ih
        rw [List.intercalate_singleton, ih]
      | cons next pieces =>
        rw [List.intercalate_cons_cons] at ih
        rw [List.intercalate_cons_cons, ← ih]
        rfl

theorem eq_nil_of_split {cs : List Char} (whole : split separator cs = [[]]) : cs = [] := by
  cases cs with
  | nil => rfl
  | cons c cs =>
    rw [split] at whole
    split at whole
    · exact absurd (List.cons.inj whole).2 (split_ne_nil separator cs)
    · split at whole <;> cases whole

end

theorem join_eq_intercalate (separator : List Char) (pieces : List (List Char)) :
    join separator pieces = separator.intercalate pieces := by
  induction pieces with
  | nil => rfl
  | cons piece pieces ih =>
    cases pieces with
    | nil => rw [join, List.intercalate_singleton]
    | cons next pieces => rw [join, ih, List.intercalate_cons_cons]; simp

/-! ### Blanks -/

theorem mem_trimStart {c : Char} {cs : List Char} (member : c ∈ cs) (visible : isBlank c = false) :
    c ∈ trimStart cs := by
  rw [← List.takeWhile_append_dropWhile (p := isBlank) (l := cs), List.mem_append] at member
  refine member.resolve_left fun among => ?_
  have blank := List.all_eq_true.mp List.all_takeWhile c among
  rw [visible] at blank
  cases blank

theorem mem_trim {c : Char} {cs : List Char} (member : c ∈ cs) (visible : isBlank c = false) :
    c ∈ trim cs := by
  rw [trim, trimEnd, List.mem_reverse]
  exact mem_trimStart (List.mem_reverse.mpr (mem_trimStart member visible)) visible

theorem trim_eq_nil_iff {cs : List Char} : trim cs = [] ↔ ∀ c ∈ cs, isBlank c = true := by
  constructor
  · intro empty c member
    cases visible : isBlank c with
    | true => rfl
    | false =>
      have left := mem_trim member visible
      rw [empty] at left
      cases left
  · intro blank
    have nothing : trimStart cs = [] := List.dropWhile_eq_nil_iff.mpr blank
    rw [trim, nothing]
    rfl

/-! ### Line ends -/

/-- A text behind which a new line begins. -/
def EndsLine (text : List Char) : Prop := text = [] ∨ text.getLast? = some '\n'

/-- A text in front of which a line is over. -/
def BeginsPastLine (text : List Char) : Prop := text = [] ∨ text.head? = some '\n'

instance : DecidablePred EndsLine := fun _ => inferInstanceAs (Decidable (_ ∨ _))

instance : DecidablePred BeginsPastLine := fun _ => inferInstanceAs (Decidable (_ ∨ _))

/-- A text whose lines have all ended. -/
inductive OfLines : List Char → Prop where
  | nil : OfLines []
  | line {line rest : List Char} (whole : '\n' ∉ line) (others : OfLines rest) :
      OfLines (line ++ '\n' :: rest)

theorem EndsLine.tail {c : Char} {text : List Char} (ended : EndsLine (c :: text)) :
    EndsLine text := by
  cases text with
  | nil => exact .inl rfl
  | cons d text => exact .inr (List.getLast?_cons_cons ▸ ended.resolve_left (List.cons_ne_nil _ _))

theorem EndsLine.ofLines {text : List Char} (ended : EndsLine text) : OfLines text := by
  induction text with
  | nil => exact .nil
  | cons c text ih =>
    have others := ih ended.tail
    by_cases feed : c = '\n'
    · subst feed
      exact .line List.not_mem_nil others
    · cases others with
      | nil =>
        have last := ended.resolve_left (List.cons_ne_nil _ _)
        exact absurd (Option.some.inj last) feed
      | line whole others =>
        exact OfLines.line (List.not_mem_cons_of_ne_of_not_mem (Ne.symm feed) whole) others

/-- A line has lost a carriage return, or nothing. -/
theorem dropCarriageReturn_cases (line : List Char) :
    dropCarriageReturn line = line ∨ line = dropCarriageReturn line ++ ['\r'] := by
  unfold dropCarriageReturn
  split
  next rest reversed =>
    right
    have turned := congrArg List.reverse reversed
    rwa [List.reverse_reverse, List.reverse_cons] at turned
  · exact .inl rfl

/-! ### Lines -/

theorem lines_cons {line : List Char} (whole : '\n' ∉ line) (rest : List Char) :
    lines (line ++ '\n' :: rest) = dropCarriageReturn line :: lines rest := by
  obtain ⟨piece, pieces, cut⟩ := List.exists_cons_of_ne_nil (split_ne_nil '\n' rest)
  rw [lines, lines, split_append whole, cut, stripLineEnds]
  · cases stripped : stripLineEnds (piece :: pieces) with
    | nil => cases pieces <;> cases stripped
    | cons head tail => rfl
  · exact List.cons_ne_nil _ _

/-- The last line of a text counts, unless it is empty. -/
theorem lines_last {line : List Char} (whole : '\n' ∉ line) :
    lines line = if line = [] then [] else [line] := by
  rw [lines, split_of_not_mem whole, stripLineEnds, dropLastEmpty]
  simp only [List.isEmpty_iff]

/-- The line in front of what is past it is the first one, less a carriage return if it had one.
Only an empty line at the end of a text is no line. -/
theorem lines_append_past {line after : List Char} (whole : '\n' ∉ line)
    (past : BeginsPastLine after) :
    line = [] ∧ after = [] ∨ ∃ text, (line = text ∨ line = text ++ ['\r']) ∧
      lines (line ++ after) = text :: lines after.tail := by
  cases after with
  | nil =>
    rw [List.append_nil, lines_last whole]
    by_cases empty : line = []
    · exact .inl ⟨empty, rfl⟩
    · rw [if_neg empty]
      exact .inr ⟨line, .inl rfl, rfl⟩
  | cons c rest =>
    obtain rfl : c = '\n' := Option.some.inj (past.resolve_left (List.cons_ne_nil _ _))
    exact .inr ⟨_, (dropCarriageReturn_cases line).imp_left Eq.symm, lines_cons whole rest⟩

theorem OfLines.lines_append {text : List Char} (lined : OfLines text) (rest : List Char) :
    lines (text ++ rest) = lines text ++ lines rest := by
  induction lined with
  | nil => rfl
  | line whole others ih =>
    rw [List.append_assoc, List.cons_append, lines_cons whole, lines_cons whole, ih,
      List.cons_append]

/-- There is one line for each line feed. -/
theorem OfLines.length_lines {text : List Char} (lined : OfLines text) :
    (lines text).length = text.count '\n' := by
  induction lined with
  | nil => rfl
  | line whole others ih =>
    rw [lines_cons whole, List.length_cons, ih, List.count_append, List.count_eq_zero.mpr whole,
      List.count_cons_self, Nat.zero_add]

end SuiteRunner.Text
