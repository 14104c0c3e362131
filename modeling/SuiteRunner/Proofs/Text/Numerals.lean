/-!
# Signs in numerals

In a numeral there are only digits, and in front of them a minus sign if the number is negative.
Digits may be put in front of it until it is long enough.
-/

namespace SuiteRunner.Text

variable {c : Char}

theorem not_mem_toString_nat (other : c.isDigit = false) (n : Nat) :
    c ∉ (toString n).toList := by
  rw [Nat.toString_eq_ofList_toDigits, String.toList_ofList]
  intro member
  rw [Nat.isDigit_of_mem_toDigits (by decide) (by decide) member] at other
  cases other

theorem not_mem_toString_int (other : c.isDigit = false) (unsigned : c ≠ '-') (n : Int) :
    c ∉ (toString n).toList := by
  cases n with
  | ofNat n => exact not_mem_toString_nat other n
  | negSucc n =>
    change c ∉ ("-" ++ toString (n + 1)).toList
    rw [String.toList_append]
    simpa [unsigned] using not_mem_toString_nat other (n + 1)

theorem not_mem_pushn {d : Char} (other : c ≠ d) {text : String} (free : c ∉ text.toList)
    (count : Nat) : c ∉ (text.pushn d count).toList := by
  rw [String.pushn_eq_repeat_push]
  induction count with
  | zero => exact free
  | succ count ih =>
    rw [Nat.repeat, String.toList_push, List.mem_append, List.mem_singleton, not_or]
    exact ⟨ih, other⟩

end SuiteRunner.Text
