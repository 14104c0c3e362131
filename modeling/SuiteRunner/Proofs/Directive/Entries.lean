import SuiteRunner.Directive.Lexer
import SuiteRunner.Proofs.Except

/-!
# Entries of a list

An entry is the written form of an expression with blanks around it, or it is empty or malformed. A
list is read if all of its entries are such forms, and otherwise the first one that is not tells
what is wrong.
-/

namespace SuiteRunner.Directive

open Feature

/-- An entry is the written form of an expression. -/
structure Accepts (item : List Char) (expr : Expr) : Prop where
  nonempty : Text.trim item ≠ []
  parsed : Expr.parse (String.ofList (Text.trim item)) = .ok expr

/-- What is wrong with an entry. -/
inductive Refuses (directive : String) (item : List Char) : Cause → Prop where
  | empty (empty : Text.trim item = []) : Refuses directive item (.emptyEntry directive)
  | malformed {fault : SyntaxError} (nonempty : Text.trim item ≠ [])
      (failed : Expr.parse (String.ofList (Text.trim item)) = .error fault) :
      Refuses directive item (.badExpression directive fault)

section

variable {directive : String} {item rest : List Char} {expr : Expr} {exprs : List Expr}
  {cause : Cause}

theorem entry_eq_ok_iff : entry directive item = .ok expr ↔ Accepts item expr := by
  rw [entry]
  by_cases empty : Text.trim item = []
  · rw [if_pos (List.isEmpty_iff.mpr empty)]
    exact iff_of_false nofun fun accepts => accepts.nonempty empty
  · rw [if_neg (mt List.isEmpty_iff.mp empty), mapError_eq_ok_iff]
    exact ⟨fun parsed => ⟨empty, parsed⟩, Accepts.parsed⟩

theorem entry_eq_error_iff :
    entry directive item = .error cause ↔ Refuses directive item cause := by
  rw [entry]
  by_cases empty : Text.trim item = []
  · rw [if_pos (List.isEmpty_iff.mpr empty)]
    constructor
    · rintro ⟨⟩
      exact .empty empty
    · rintro (_ | ⟨nonempty⟩)
      · rfl
      · exact absurd empty nonempty
  · rw [if_neg (mt List.isEmpty_iff.mp empty), mapError_eq_error_iff]
    constructor
    · rintro ⟨fault, failed, rfl⟩
      exact .malformed empty failed
    · rintro (empty' | ⟨-, failed⟩)
      · exact absurd empty' empty
      · exact ⟨_, failed, rfl⟩

theorem entries_eq_ok_iff :
    entries directive rest = .ok exprs ↔ List.Forall₂ Accepts (Text.split ',' rest) exprs := by
  simp only [entries, mapM_eq_ok_iff, entry_eq_ok_iff]

theorem entries_eq_error_iff :
    entries directive rest = .error cause ↔
      ∃ before item after, Text.split ',' rest = before ++ item :: after ∧
        (∀ earlier ∈ before, ∃ expr, Accepts earlier expr) ∧ Refuses directive item cause := by
  simp only [entries, mapM_eq_error_iff, entry_eq_ok_iff, entry_eq_error_iff]

end

end SuiteRunner.Directive
