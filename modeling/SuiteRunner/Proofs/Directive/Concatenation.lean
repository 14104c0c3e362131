import SuiteRunner.Proofs.Directive.Reading

/-!
# Reading one text behind another

If the first text ends with a line end, holds no line that stops the reading and leaves no command
open, then the two are read as each of them by itself: the answer for both is put together of the
two answers, with the lines of the second text counted on from those of the first.
-/

namespace SuiteRunner.Directive

/-- The answer for two texts, one behind the other: the directives of both, or all errors. -/
def joined : (first second : Except (List Error) (List Item)) →
    Except (List Error) (List Item)
  | .ok directives, .ok more => .ok (directives ++ more)
  | .ok _, .error errors => .error errors
  | .error errors, .ok _ => .error errors
  | .error errors, .error more => .error (errors ++ more)

namespace Progress

variable {progress : Progress}

theorem finish_followedBy (closed : progress.openRun = none) (found : Progress) :
    (progress.followedBy found).finish = joined progress.finish found.finish := by
  have faults := faults_followedBy progress found
  rw [← faults_of_closed closed] at faults
  -- Each half is sound or at fault, and the two together are sound if both are.
  by_cases sound : progress.faults = [] <;> by_cases sound' : found.faults = []
  · rw [finish_of_sound sound, finish_of_sound sound',
      finish_of_sound (by simp [faults, sound, sound'])]
    rfl
  · rw [finish_of_sound sound, finish_of_faulty sound', finish_of_faulty (by simp [faults, sound']),
      faults, sound]
    rfl
  · rw [finish_of_faulty sound, finish_of_sound sound', finish_of_faulty (by simp [faults, sound]),
      faults, sound', List.append_nil]
    rfl
  · rw [finish_of_faulty sound, finish_of_faulty sound',
      finish_of_faulty (by simp [faults, sound]), faults]
    rfl

end Progress

/-- An open command is reported. -/
theorem closed_of_read {source : String}
    (closed : ∀ errors, read source = .error errors →
      ∀ e ∈ errors, e.cause ≠ .unterminatedContinuation) :
    (progressOf source).openRun = none := by
  cases opened : (progressOf source).openRun with
  | none => rfl
  | some run =>
    have reported :
        (⟨run.line, .unterminatedContinuation⟩ : Error) ∈ (progressOf source).faults := by
      simp [Progress.faults, opened]
    have failed := (read_eq_finish source).trans
      (Progress.finish_of_faulty (List.ne_nil_of_mem reported))
    exact absurd rfl (closed _ failed _ reported)

theorem progressOf_append_closed {a b : String} (ended : Text.EndsLine a.toList)
    (goesOn : ∀ line ∈ Text.lines a.toList, ¬ Stops line)
    (closed : (progressOf a).openRun = none) :
    progressOf (a ++ b) =
      (progressOf a).followedBy ((progressOf b).renumber (· + a.toList.count '\n')) := by
  have unstopped : ¬ ∃ line ∈ Text.lines a.toList, Stops line :=
    fun ⟨line, member, stops⟩ => goesOn line member stops
  rw [progressOf_append ended, if_neg unstopped,
    Progress.foldl_followedBy Progress.addLine_followedBy, closed, heard_add]
  exact congrArg _ (Progress.foldl_addLine_renumber _ {} _)

/-- Two texts are read as each of them by itself, if the first one ends with a line end, holds no
line that stops the reading and has no continuation open at its end. -/
theorem read_concatenation {a b : String} (ended : Text.EndsLine a.toList)
    (goesOn : ∀ line ∈ Text.lines a.toList, ¬ Stops line)
    (closed : ∀ errors, read a = .error errors →
      ∀ e ∈ errors, e.cause ≠ .unterminatedContinuation) :
    read (a ++ b) = joined (read a) (renumbered (· + a.toList.count '\n') (read b)) := by
  have opened := closed_of_read closed
  rw [read_eq_finish, progressOf_append_closed ended goesOn opened,
    Progress.finish_followedBy opened, Progress.finish_renumber, ← read_eq_finish, ← read_eq_finish]

/-- A command over two lines with a faulty list between them, and behind it one left open. -/
theorem read_list_in_command :
    let a := "RUN: a \\\r\n; REQUIRES: ,x\r\nRUN: | b\n"
    let b := "RUN: c\n\nRUN: d\\"
    Text.EndsLine a.toList ∧ (∀ line ∈ Text.lines a.toList, ¬ Stops line) ∧
      read a = .error [⟨2, .emptyEntry "REQUIRES"⟩] ∧
      read b = .error [⟨3, .unterminatedContinuation⟩] ∧
      read (a ++ b) = .error [⟨2, .emptyEntry "REQUIRES"⟩, ⟨6, .unterminatedContinuation⟩] := by
  intro a b
  have ended : Text.EndsLine a.toList := by decide +kernel
  have goesOn : ∀ line ∈ Text.lines a.toList, ¬ Stops line := by decide +kernel
  have first : read a = .error [⟨2, .emptyEntry "REQUIRES"⟩] :=
    read_eq_error_iff.mpr (by decide +kernel)
  have second : read b = .error [⟨3, .unterminatedContinuation⟩] :=
    read_eq_error_iff.mpr (by decide +kernel)
  refine ⟨ended, goesOn, first, second, ?_⟩
  have closed : ∀ errors, read a = .error errors →
      ∀ e ∈ errors, e.cause ≠ .unterminatedContinuation := by
    intro errors failed
    cases first.symm.trans failed
    decide
  have together := read_concatenation (b := b) ended goesOn closed
  have counted : a.toList.count '\n' = 3 := by decide
  rw [first, second, counted] at together
  exact together

end SuiteRunner.Directive
