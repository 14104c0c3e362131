import SuiteRunner.Ordered

/-!
# Maps and sets stay sorted

Setting a key and adding a member keep the order of the keys strict, so no key occurs
twice. What a map or set was built from decides its members and nothing else.
-/

namespace SuiteRunner.Ordered

variable {α : Type}

/-! ### Maps -/

/-- Each key has one value. -/
def HasDistinctKeys (entries : List (String × α)) : Prop :=
  (entries.map Prod.fst).Nodup

theorem KeysIncrease.distinct {entries : List (String × α)} (increase : KeysIncrease entries) :
    HasDistinctKeys entries := by
  refine List.Pairwise.map Prod.fst ?_ increase
  intro a b below equal
  rw [equal] at below
  exact String.lt_irrefl _ below

/-! ### Sets -/

theorem increasing_insert (member : String) {members : List String}
    (increase : members.Pairwise (· < ·)) : (insert member members).Pairwise (· < ·) := by
  induction members with
  | nil => exact List.pairwise_singleton _ _
  | cons m members ih =>
    obtain ⟨above, rest⟩ := List.pairwise_cons.mp increase
    unfold insert
    split
    · exact increase
    next different =>
      split
      next below =>
        refine List.pairwise_cons.mpr ⟨?_, increase⟩
        intro other present
        rcases List.mem_cons.mp present with rfl | present
        · exact below
        · exact String.lt_trans below (above other present)
      next notBelow =>
        refine List.pairwise_cons.mpr ⟨?_, ih rest⟩
        intro other present
        rcases (mem_insert member members other).mp present with rfl | present
        · exact lt_of_not_lt different notBelow
        · exact above other present

theorem increasing_insertAll (found : List String) {members : List String}
    (increase : members.Pairwise (· < ·)) : (insertAll members found).Pairwise (· < ·) := by
  induction found generalizing members with
  | nil => exact increase
  | cons member found ih => exact ih (increasing_insert member increase)

theorem mem_insertAll (members found : List String) (asked : String) :
    asked ∈ insertAll members found ↔ asked ∈ members ∨ asked ∈ found := by
  induction found generalizing members with
  | nil => simp [insertAll]
  | cons member found ih =>
    change asked ∈ insertAll (insert member members) found ↔ _
    rw [ih, mem_insert, List.mem_cons, or_comm (a := asked = member), or_assoc]

end SuiteRunner.Ordered
