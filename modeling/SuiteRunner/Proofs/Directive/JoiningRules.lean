import Mathlib.Data.List.Induction
import SuiteRunner.Proofs.Directive.Continuation

/-!
# Two rules for joining lines

By the rule that the format announces each `RUN:` line decides for itself whether it goes on, by
the rule of the reading the text joined so far does. As long as lines end in a backslash the two
agree. They part at a line that does not: if it is empty, and what is joined in front of it still
ends in a backslash without the one that continued the line before, only the first rule closes
the group.
-/

namespace SuiteRunner.Directive

variable {group parts : List RunPart} {text body : List Char}

/-! ### Texts of groups -/

theorem endsInBackslash_append (nonempty : body ≠ []) :
    EndsInBackslash (text ++ body) ↔ EndsInBackslash body := by
  rw [← List.dropLast_concat_getLast nonempty, ← List.append_assoc]
  simp only [EndsInBackslash, List.getLast?_concat]

theorem EndsInBackslash.ne_nil (ends : EndsInBackslash text) : text ≠ [] := by
  rintro rfl
  cases ends

theorem withoutBackslash_append (ends : EndsInBackslash body) :
    withoutBackslash (text ++ body) = text ++ withoutBackslash body := by
  have longer : EndsInBackslash (text ++ body) := (endsInBackslash_append ends.ne_nil).mpr ends
  rw [withoutBackslash, withoutBackslash, if_pos longer, if_pos ends,
    List.dropLast_append_of_ne_nil ends.ne_nil]

theorem writtenText_concat (group : List RunPart) (part : RunPart) :
    writtenText (group ++ [part]) = writtenText group ++ withoutBackslash part.body := by
  simp [writtenText]

/-- All lines of a group end in a backslash. -/
def Carried (group : List RunPart) : Prop := ∀ part ∈ group, EndsInBackslash part.body

theorem Carried.nil : Carried [] := fun _ => nofun

theorem Carried.concat {part : RunPart} (carried : Carried group)
    (ends : EndsInBackslash part.body) : Carried (group ++ [part]) := by
  intro other member
  rcases List.mem_append.mp member with earlier | here
  · exact carried other earlier
  · exact List.mem_singleton.mp here ▸ ends

/-- As long as each line ends in a backslash, it is its own one that it loses. -/
theorem Carried.withoutBackslash_joinedText (carried : Carried group) :
    withoutBackslash (joinedText group) = writtenText group := by
  induction group using List.reverseRecOn with
  | nil => rfl
  | append_singleton group part ih =>
    have ends : EndsInBackslash part.body := carried part (by simp)
    rw [joinedText_concat, withoutBackslash_append ends, writtenText_concat,
      ih fun other member => carried other (List.mem_append_left _ member)]

theorem Carried.joinedText_concat (carried : Carried group) (part : RunPart) :
    joinedText (group ++ [part]) = writtenText group ++ part.body := by
  rw [Directive.joinedText_concat, carried.withoutBackslash_joinedText]

/-- A line that closes its group by itself adds all of its text. -/
theorem Carried.joinedText_closed {part : RunPart} (carried : Carried group)
    (ends : ¬ EndsInBackslash part.body) :
    joinedText (group ++ [part]) = writtenText (group ++ [part]) := by
  rw [carried.joinedText_concat, writtenText_concat, withoutBackslash, if_neg ends]

/-- A line that ends in a backslash goes on by either rule. -/
theorem byText_goesOn_of_ends {part : RunPart} (group : List RunPart)
    (ends : EndsInBackslash part.body) : Joining.byText.goesOn (group ++ [part]) = true := by
  refine decide_eq_true ?_
  rw [joinedText_concat, endsInBackslash_append ends.ne_nil]
  exact ends

/-! ### Groups -/

/-- Where no closed group ends in a backslash, the two rules agree. -/
theorem Carried.groups_agree (carried : Carried group)
    (clean : ∀ closed ∈ (Joining.byLine.groups group parts).closed,
      ¬ EndsInBackslash (writtenText closed)) :
    Joining.byText.groups group parts = Joining.byLine.groups group parts ∧
      ∀ closed ∈ (Joining.byLine.groups group parts).closed,
        joinedText closed = writtenText closed := by
  -- By induction on the parts. As long as the last line of a group is carried on, both rules go on;
  -- where it is not, the text of the group decides as the line does, as `clean` says.
  induction parts generalizing group with
  | nil => exact ⟨rfl, fun closed => nofun⟩
  | cons part parts ih =>
    by_cases ends : EndsInBackslash part.body
    · rw [Joining.groups_of_goesOn (byText_goesOn_of_ends group ends)]
      rw [Joining.byLine_groups_of_carried ends] at clean ⊢
      exact ih (carried.concat ends) clean
    · rw [Joining.byLine_groups_of_last ends] at clean ⊢
      obtain ⟨here, others⟩ := List.forall_mem_cons.mp clean
      have same := carried.joinedText_closed ends
      rw [← same] at here
      obtain ⟨agree, texts⟩ := ih Carried.nil others
      rw [Joining.groups_of_ends (decide_eq_false here), agree]
      exact ⟨rfl, List.forall_mem_cons.mpr ⟨same, texts⟩⟩

/-- What closes a group by its text closes one by its last line. -/
theorem length_closed_le (group group' parts : List RunPart) :
    (Joining.byText.groups group parts).closed.length ≤
      (Joining.byLine.groups group' parts).closed.length := by
  -- Whenever the rule by the text closes a group the rule by the line closes one too, whatever the
  -- two have open.
  induction parts generalizing group group' with
  | nil => exact Nat.le_refl _
  | cons part parts ih =>
    by_cases ends : EndsInBackslash part.body
    · rw [Joining.groups_of_goesOn (byText_goesOn_of_ends group ends),
        Joining.byLine_groups_of_carried ends]
      exact ih _ _
    · rw [Joining.byLine_groups_of_last ends]
      cases goesOn : Joining.byText.goesOn (group ++ [part]) with
      | true =>
        rw [Joining.groups_of_goesOn goesOn]
        exact Nat.le_succ_of_le (ih _ _)
      | false =>
        rw [Joining.groups_of_ends goesOn]
        exact Nat.succ_le_succ (ih _ _)

/-- Where a closed group ends in a backslash, fewer are closed by their text. -/
theorem Carried.length_closed_lt (carried : Carried group)
    (spoiled : ∃ closed ∈ (Joining.byLine.groups group parts).closed,
      EndsInBackslash (writtenText closed)) :
    (Joining.byText.groups group parts).closed.length <
      (Joining.byLine.groups group parts).closed.length := by
  induction parts generalizing group with
  | nil =>
    obtain ⟨closed, member, -⟩ := spoiled
    cases member
  | cons part parts ih =>
    by_cases ends : EndsInBackslash part.body
    · rw [Joining.groups_of_goesOn (byText_goesOn_of_ends group ends)]
      rw [Joining.byLine_groups_of_carried ends] at spoiled ⊢
      exact ih (carried.concat ends) spoiled
    · rw [Joining.byLine_groups_of_last ends] at spoiled ⊢
      have same := carried.joinedText_closed ends
      by_cases here : EndsInBackslash (joinedText (group ++ [part]))
      -- this is the spoiled group: it goes on by its text, and never gains on the other rule
      · rw [Joining.groups_of_goesOn (decide_eq_true here)]
        exact Nat.lt_succ_of_le (length_closed_le _ _ _)
      · rw [Joining.groups_of_ends (decide_eq_false here)]
        refine Nat.succ_lt_succ (ih Carried.nil ?_)
        obtain ⟨closed, member, spoils⟩ := spoiled
        rcases List.mem_cons.mp member with rfl | later
        · exact absurd (same ▸ spoils) here
        · exact ⟨closed, later, spoils⟩

/-! ### Readings -/

theorem length_outcomes (joining : Joining) (parts : List RunPart) :
    (joining.groups [] parts).closed.length =
      (made (joining.outcomes parts)).length +
        (failed (joining.outcomes parts) ++ unterminated (joining.groups [] parts).left).countP
          (·.cause = .emptyRun) := by
  have open_ : (unterminated (joining.groups [] parts).left).countP (·.cause = .emptyRun) = 0 := by
    rw [unterminated]
    split <;> rfl
  rw [List.countP_append, open_, Nat.add_zero, Joining.outcomes]
  -- Each closed group makes a command or fails as an empty one, so the sum grows by one with each.
  induction (joining.groups [] parts).closed with
  | nil => rfl
  | cons group closed ih =>
    rw [List.length_cons, ih, List.map_cons, made, failed, made, failed, List.filterMap_cons,
      List.filterMap_cons, outcome]
    cases RunLine.ofText? (joining.text group) (firstLine group) with
    | some line => simp [Except.toOption, Nat.add_right_comm]
    | none => simp [Except.toOption, Nat.add_assoc]

/-- What is found tells how many groups have been closed. -/
theorem Joining.Reads.length_closed {joining other : Joining} {source : String}
    (reads : joining.Reads source) (reads' : other.Reads source) :
    (joining.groups [] (runParts source)).closed.length =
      (other.groups [] (runParts source)).closed.length := by
  obtain ⟨directives, faults⟩ := Joining.reads_iff.mp reads
  obtain ⟨directives', faults'⟩ := Joining.reads_iff.mp reads'
  rw [length_outcomes, length_outcomes, ← directives, ← faults, ← directives', ← faults']

/-- What is left open is the group in front, or it is there because of the last line. -/
theorem byLine_left (group parts : List RunPart) :
    (Joining.byLine.groups group parts).left ≠ [] ↔
      match parts.getLast? with
      | none => group ≠ []
      | some part => EndsInBackslash part.body := by
  induction parts generalizing group with
  | nil => rfl
  | cons part parts ih =>
    rw [List.getLast?_cons]
    by_cases ends : EndsInBackslash part.body
    · rw [Joining.byLine_groups_of_carried ends, ih]
      cases parts.getLast? <;> simp [ends]
    · rw [Joining.byLine_groups_of_last ends, ih]
      cases parts.getLast? <;> simp [ends]

theorem byLine_reads_iff (source : String) : Joining.byLine.Reads source ↔
    ∀ closed ∈ (Joining.byLine.groups [] (runParts source)).closed,
      ¬ EndsInBackslash (writtenText closed) := by
  constructor
  · intro reads closed member spoils
    -- as much is found by either rule, so either closes as many groups
    have fewer := Carried.nil.length_closed_lt ⟨closed, member, spoils⟩
    rw [(byText_reads source).length_closed reads] at fewer
    exact Nat.lt_irrefl _ fewer
  · intro clean
    obtain ⟨agree, texts⟩ := Carried.nil.groups_agree clean
    have outcomes : Joining.byLine.outcomes (runParts source) =
        Joining.byText.outcomes (runParts source) := by
      rw [Joining.outcomes, Joining.outcomes, agree]
      refine List.map_congr_left fun closed member => ?_
      exact congrArg (outcome · _) (texts closed member).symm
    rw [Joining.reads_iff, outcomes, ← agree]
    exact Joining.reads_iff.mp (byText_reads source)

/-- What is found in a text is returned if nothing is wrong, and otherwise all that is wrong is. The
commands found are those of the `RUN:` lines joined by their text. They are those of the lines
joined by the announced rule, by which the last one is left open if and only if it ends in a
backslash, just when no text of a group that this rule closes ends in a backslash. -/
theorem commands_by_line_iff (source : String) :
    (read source =
      if (progressOf source).faults = [] then .ok (progressOf source).directives
      else .error (progressOf source).faults) ∧
    Joining.byText.Reads source ∧
    (Joining.byLine.Reads source ↔
      ∀ closed ∈ (Joining.byLine.groups [] (runParts source)).closed,
        ¬ EndsInBackslash (Joining.byLine.text closed)) ∧
    ((Joining.byLine.groups [] (runParts source)).left ≠ [] ↔
      ∃ part ∈ (runParts source).getLast?, EndsInBackslash part.body) := by
  refine ⟨read_eq source, byText_reads source, byLine_reads_iff source, ?_⟩
  rw [byLine_left]
  cases (runParts source).getLast? <;> simp

/-- By the announced rule the first line goes on in the second, which is empty and closes the group,
so the command is `a` with one backslash. The reading asks for a third line. -/
theorem emptyLine_asks_for_more :
    let source := "RUN: a\\\\\nRUN:\n"
    Joining.byLine.groups [] (runParts source) = ⟨[runParts source], []⟩ ∧
      Joining.byLine.text (runParts source) = ['a', '\\'] ∧
      Makes ['a', '\\'] 1 (.ok ⟨.run ⟨"a\\", 1, true⟩, 1⟩) ∧
      read source = .error [⟨1, .unterminatedContinuation⟩] ∧
      ¬ Joining.byLine.Reads source := by
  intro source
  have parts : runParts source = [⟨" a\\\\".toList, 1⟩, ⟨[], 2⟩] := by decide +kernel
  have groups : Joining.byLine.groups [] (runParts source) = ⟨[runParts source], []⟩ := by
    rw [parts]
    decide
  have text : Joining.byLine.text (runParts source) = ['a', '\\'] := by
    rw [parts]
    decide
  have faults : (progressOf source).faults = [⟨1, .unterminatedContinuation⟩] := by decide +kernel
  refine ⟨groups, text, ?_, ?_, fun reads => ?_⟩
  · exact Makes.command (Spells.plain (by decide) : Spells ['a', '\\'] ['a', '\\'] true) (by decide)
  · rw [read_eq_finish, Progress.finish_of_faulty (by rw [faults]; simp), faults]
  · refine (byLine_reads_iff source).mp reads (runParts source) ?_ ?_
    · rw [groups]
      exact List.mem_singleton_self _
    · exact congrArg List.getLast? text

end SuiteRunner.Directive
