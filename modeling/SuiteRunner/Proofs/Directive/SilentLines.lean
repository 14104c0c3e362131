import SuiteRunner.Proofs.Directive.Reading

/-!
# Lines that do not matter

A line in which no marker stands is passed wherever it is, between the lines of a continued command
too: what is found stays the same if it is replaced by another such line, and only the lines behind
it are counted differently if it is deleted. What comes behind a line that stops the reading is
not looked at.
-/

namespace SuiteRunner.Directive

open Text (lines EndsLine BeginsPastLine)

variable {before line after : List Char}

/-! ### At a line -/

/-- A silent line adds nothing, be it the last one or not. -/
theorem foldl_heard_silent (whole : '\n' ∉ line) (silent : Silent line)
    (past : BeginsPastLine after) (number : Nat) (progress : Progress) :
    (heard number (lines (line ++ after))).foldl Progress.addLine progress =
      (heard (number + 1) (lines after.tail)).foldl Progress.addLine progress := by
  rcases Text.lines_append_past whole past with ⟨rfl, rfl⟩ | ⟨text, here, cut⟩
  · rfl
  · have silent' : Silent text := by
      rcases here with rfl | rfl
      · exact silent
      · exact silent.of_concat
    rw [cut, heard_cons silent'.not_stops, List.foldl_cons, progress.addLine_of_silent silent']

theorem heard_stop (whole : '\n' ∉ line) (stops : Stops line) (past : BeginsPastLine after)
    (number : Nat) : heard number (lines (line ++ after)) = [] := by
  rcases Text.lines_append_past whole past with ⟨rfl, rfl⟩ | ⟨text, here, cut⟩
  · rfl
  · have stops' : Stops text := by
      rcases here with rfl | rfl
      · exact stops
      · exact stops.of_concat
    rw [cut, heard_of_stops stops']

/-! ### Counting down -/

/-- One line less is counted behind the line `number`. -/
def countDown (number line : Nat) : Nat := if number < line then line - 1 else line

theorem map_countDown_heard (number : Nat) (texts : List (List Char)) :
    (heard (number + 1) texts).map (Prod.map id (countDown number)) = heard number texts := by
  rw [heard_add, List.map_map]
  refine List.map_congr_left (g := id) (fun line member => ?_) |>.trans (List.map_id _)
  have least := (heard_numbers member).1
  exact Prod.ext rfl (if_pos (Nat.lt_succ_of_le least))

theorem renumber_countDown_progressOf (ended : EndsLine before) :
    (progressOf (String.ofList before)).renumber (countDown (1 + before.count '\n')) =
      progressOf (String.ofList before) := by
  rw [progressOf, String.toList_ofList]
  refine (Progress.foldl_addLine_renumber _ {} _).symm.trans (congrArg _ ?_)
  refine List.map_congr_left (g := id) (fun line member => ?_) |>.trans (List.map_id _)
  have most := (heard_numbers member).2
  rw [ended.ofLines.length_lines] at most
  exact Prod.ext rfl (if_neg (Nat.not_lt.mpr (Nat.le_of_lt most)))

/-! ### Behind other lines -/

/-- Lines in which no marker stands can be replaced by each other and, apart from the numbers of the
lines behind them, deleted; and all that is behind a line that stops the reading can be replaced. -/
theorem only_directives_matter (ended : EndsLine before) (whole : '\n' ∉ line)
    (past : BeginsPastLine after) :
    (Silent line →
      (∀ other, '\n' ∉ other → Silent other →
        read (String.ofList (before ++ other ++ after)) =
          read (String.ofList (before ++ line ++ after))) ∧
      read (String.ofList (before ++ after.tail)) =
        renumbered (countDown (1 + before.count '\n'))
          (read (String.ofList (before ++ line ++ after)))) ∧
    (Stops line → ∀ other, BeginsPastLine other →
      read (String.ofList (before ++ line ++ other)) =
        read (String.ofList (before ++ line ++ after))) := by
  have ended' : EndsLine (String.ofList before).toList := by rwa [String.toList_ofList]
  have behind (rest : List Char) := progressOf_append ended' (String.ofList rest)
  simp only [← String.ofList_append, String.toList_ofList] at behind
  simp only [read_eq_finish, List.append_assoc, behind]
  -- if the lines in front stop the reading, nothing behind them is read at all
  refine ⟨fun silent => ⟨fun other whole' silent' => ?_, ?_⟩, fun stops other past' => ?_⟩
  · split
    · rfl
    · rw [foldl_heard_silent whole' silent' past, foldl_heard_silent whole silent past]
  · rw [← Progress.finish_renumber]
    split
    · exact congrArg _ (renumber_countDown_progressOf ended).symm
    · rw [foldl_heard_silent whole silent past, ← Progress.foldl_addLine_renumber,
        renumber_countDown_progressOf ended, map_countDown_heard]
  · split
    · rfl
    · rw [heard_stop whole stops past', heard_stop whole stops past]

/-- A glued marker between the lines of a command can be replaced or deleted, and what is behind a
line that stops the reading can be left out. -/
theorem gluedMarker_replaced :
    let before := "RUN: a \\\n".toList
    let glued := "XRUN: no".toList
    let plain := "text".toList
    let stop := "; END. ".toList
    let after := "\n; RUN: b\n".toList
    EndsLine before ∧ '\n' ∉ glued ∧ BeginsPastLine after ∧
      Silent glued ∧ Silent plain ∧ Stops stop ∧
      read (String.ofList (before ++ plain ++ after)) =
        read (String.ofList (before ++ glued ++ after)) ∧
      read (String.ofList (before ++ after.tail)) =
        renumbered (countDown 2) (read (String.ofList (before ++ glued ++ after))) ∧
      read (String.ofList (before ++ stop ++ [])) =
        read (String.ofList (before ++ stop ++ after)) := by
  intro before glued plain stop after
  have ended : EndsLine before := by decide
  have whole : '\n' ∉ glued := by decide
  have past : BeginsPastLine after := by decide
  have silent : Silent glued := by decide +kernel
  have silent' : Silent plain := by decide +kernel
  have stops : Stops stop := by decide +kernel
  obtain ⟨replaced, deleted⟩ := (only_directives_matter ended whole past).1 silent
  exact ⟨ended, whole, past, silent, silent', stops, replaced plain (by decide) silent', deleted,
    (only_directives_matter ended (by decide) past).2 stops [] (.inl rfl)⟩

end SuiteRunner.Directive
