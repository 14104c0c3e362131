import SuiteRunner.Proofs.Files.Spelling
import SuiteRunner.Proofs.Path.Parents

/-!
# The directories a path goes through

A path goes down by its names and up by each `..`, from directory to directory; a file can only
stand at its end. In a tree without links the components of a path tell all of these directories.
-/

namespace SuiteRunner.Files

open SuiteRunner.Path (Component)

/-- Where a component leads from a place. -/
def Place.move (here : Place) : Component → Place
  | .name name => here ++ [name]
  | .up => here.dropLast
  | .root | .here => here

theorem Place.foldl_move_names (here : Place) (names : List String) :
    (names.map Component.name).foldl Place.move here = here ++ names := by
  induction names generalizing here with
  | nil => exact (List.append_nil here).symm
  | cons name names ih =>
    rw [List.map_cons, List.foldl_cons, ih, Place.move, List.append_assoc, List.singleton_append]

/-- Without any `..` the way only goes down. -/
theorem Place.prefix_foldl_move {here : Place} {components : List Component}
    (downwards : Component.up ∉ components) : here <+: components.foldl Place.move here := by
  induction components generalizing here with
  | nil => exact List.prefix_refl here
  | cons component components ih =>
    refine List.IsPrefix.trans ?_ (ih (List.not_mem_of_not_mem_cons downwards))
    cases component with
    | up => exact absurd List.mem_cons_self downwards
    | name name => exact List.prefix_append here [name]
    | root | here => exact List.prefix_refl here

/-- What lies between the place a way starts from and the place it leads to is on the way, because
no step skips a name. -/
theorem Place.exists_front {here between : Place} {components : List Component}
    (above : between <+: components.foldl Place.move here)
    (below : here.length ≤ between.length) :
    ∃ front back, components = front ++ back ∧ front.foldl Place.move here = between := by
  induction components using List.reverseRecOn with
  | nil => exact ⟨[], [], rfl, (above.eq_of_length_le below).symm⟩
  | append_singleton components component ih =>
    -- either it is the place itself, or it is on the way in front of the last step
    have earlier (above : between <+: components.foldl Place.move here) :
        ∃ front back, components ++ [component] = front ++ back ∧
          front.foldl Place.move here = between := by
      obtain ⟨front, back, rfl, same⟩ := ih above
      exact ⟨front, back ++ [component], List.append_assoc _ _ _, same⟩
    rw [List.foldl_append, List.foldl_cons, List.foldl_nil] at above
    cases component with
    | name name =>
      rcases List.prefix_concat_iff.mp above with same | above
      · refine ⟨components ++ [.name name], [], (List.append_nil _).symm, ?_⟩
        rw [List.foldl_append, same]
        rfl
      · exact earlier above
    -- a step up only takes a name away, so the place was on the way before
    | up => exact earlier (above.trans (List.dropLast_prefix _))
    | root | here => exact earlier above

namespace FileTree

variable {tree : FileTree} {here there mid place : Place} {front back : List Component}
  {follow : String → Place → List Step → Except Failure Place}

/-- Some components lead from one directory to another through directories only. -/
inductive Passes (tree : FileTree) : Place → List Component → Place → Prop where
  | stop {here : Place} : Passes tree here [] here
  | up {here there : Place} {others : List Component}
      (further : Passes tree here.dropLast others there) :
      Passes tree here (.up :: others) there
  | down {here there : Place} {name : String} {others : List Component}
      (short : name.length ≤ nameLimit)
      (stands : tree.entry? (here ++ [name]) = some .directory)
      (further : Passes tree (here ++ [name]) others there) :
      Passes tree here (.name name :: others) there

namespace Passes

theorem foldl_move (passes : tree.Passes here front there) :
    front.foldl Place.move here = there := by
  induction passes with
  | stop => rfl
  | up _ ih => exact ih
  | down _ _ _ ih => exact ih

theorem unique {there' : Place} (passes : tree.Passes here front there)
    (passes' : tree.Passes here front there') : there = there' :=
  passes.foldl_move.symm.trans passes'.foldl_move

theorem inside (passes : tree.Passes here front there) (inside : tree.Inside here) :
    tree.Inside there := by
  induction passes with
  | stop => exact inside
  | up _ ih => exact ih inside.up
  | down _ stands _ ih => exact ih (inside.down stands)

theorem append (passes : tree.Passes here front mid) (further : tree.Passes mid back there) :
    tree.Passes here (front ++ back) there := by
  induction passes with
  | stop => exact further
  | up _ ih => exact .up (ih further)
  | down short stands _ ih => exact .down short stands (ih further)

theorem exists_of_append (passes : tree.Passes here (front ++ back) there) :
    ∃ mid, tree.Passes here front mid ∧ tree.Passes mid back there := by
  induction front generalizing here with
  | nil => exact ⟨here, .stop, passes⟩
  | cons component front ih =>
    cases passes with
    | up further =>
      obtain ⟨mid, before, behind⟩ := ih further
      exact ⟨mid, .up before, behind⟩
    | down short stands further =>
      obtain ⟨mid, before, behind⟩ := ih further
      exact ⟨mid, .down short stands before, behind⟩

/-- A walk goes on from where the components lead. -/
theorem walkOn_append {mode : Mode} {steps : List Step} (passes : tree.Passes here front there)
    (moved : moves steps = front.map stepBy) (more : List Step) :
    tree.walkOn mode follow here (steps ++ more) = tree.walkOn mode follow there more := by
  -- By induction on what is passed. Steps that stay where they are can stand between any two of
  -- those that move, so each case walks over them first.
  induction passes generalizing steps with
  | stop => exact walkOn_idle (idle_of_moves moved) more
  | up _ ih =>
    obtain ⟨stays, rest, rfl, idle, moved⟩ := exists_of_moves moved
    rw [List.append_assoc, walkOn_idle idle]
    exact ih moved
  | @down here there name others short stands _ ih =>
    obtain ⟨stays, rest, rfl, idle, moved⟩ := exists_of_moves moved
    rw [List.append_assoc, walkOn_idle idle]
    have stepped : tree.walkOn mode follow here (stepBy (.name name) :: rest ++ more) =
        tree.walkOn mode follow (here ++ [name]) (rest ++ more) := by
      simp only [stepBy, List.cons_append, walkOn]
      rw [if_neg (Nat.not_lt_of_le short), stands]
    rw [stepped]
    exact ih moved

end Passes

/-- Some components lead through directories to what is no directory, and has this name. -/
inductive Ends (tree : FileTree) (here : Place) : List Component → String → Place → Prop where
  | below {front : List Component} {there : Place} {name : String}
      (passes : tree.Passes here front there) (short : name.length ≤ nameLimit)
      (noDirectory : tree.entry? (there ++ [name]) ≠ some .directory) :
      Ends tree here (front ++ [.name name]) name (there ++ [name])

namespace Ends

variable {components : List Component} {name : String}

theorem noDirectory (ends : tree.Ends here components name place) :
    tree.entry? place ≠ some .directory := by
  cases ends with
  | below _ _ noDirectory => exact noDirectory

/-- The last name is no way further. -/
theorem not_passes (ends : tree.Ends here components name place) :
    ¬ tree.Passes here components there := by
  intro passes
  cases ends with
  | below before _ noDirectory =>
    obtain ⟨mid, before', last⟩ := passes.exists_of_append
    cases before.unique before'
    cases last with
    | down _ stands _ => exact noDirectory stands

theorem exists_front (ends : tree.Ends here components name place) :
    ∃ front there, components = front ++ [.name name] ∧ place = there ++ [name] ∧
      tree.Passes here front there := by
  cases ends with
  | below passes => exact ⟨_, _, rfl, rfl, passes⟩

theorem up (ends : tree.Ends here.dropLast components name place) :
    tree.Ends here (.up :: components) name place := by
  cases ends with
  | below passes short noDirectory => exact .below (.up passes) short noDirectory

theorem down {step : String} (short : step.length ≤ nameLimit)
    (stands : tree.entry? (here ++ [step]) = some .directory)
    (ends : tree.Ends (here ++ [step]) components name place) :
    tree.Ends here (.name step :: components) name place := by
  cases ends with
  | below passes short' noDirectory => exact .below (.down short stands passes) short' noDirectory

end Ends

theorem Passes.append_ends {components : List Component} {name : String}
    (passes : tree.Passes here front mid) (ends : tree.Ends mid components name place) :
    tree.Ends here (front ++ components) name place := by
  cases ends with
  | below passes' short noDirectory =>
    rw [← List.append_assoc]
    exact .below (passes.append passes') short noDirectory

theorem exists_of_moves_cons {steps : List Step} {step : Step} {components : List Component}
    (moved : moves (step :: steps) = components.map stepBy) (spoken : step ≠ .stay) :
    ∃ component others, components = component :: others ∧ stepBy component = step ∧
      moves steps = others.map stepBy := by
  rw [moves, List.filter_cons_of_pos (by simpa using spoken)] at moved
  obtain ⟨component, others, rfl, same, moved⟩ := List.map_eq_cons_iff.mp moved.symm
  exact ⟨component, others, rfl, same, moved.symm⟩

/-- Where a walk comes to an end, in a tree without links. -/
theorem Plain.passes_or_ends (plain : tree.Plain) {components : List Component}
    {steps : List Step} (moved : moves steps = components.map stepBy)
    (walked : tree.walkOn {} follow here steps = .ok place) :
    tree.Passes here components place ∨ ∃ name, tree.Ends here components name place := by
  induction steps generalizing here components with
  | nil =>
    cases walked
    rw [List.map_eq_nil_iff.mp moved.symm]
    exact .inl .stop
  | cons step steps ih =>
    cases step with
    | stay => exact ih moved walked
    | up =>
      obtain ⟨component, others, rfl, same, remain⟩ := exists_of_moves_cons moved nofun
      cases component <;> cases same
      rcases ih remain walked with passes | ⟨name, ends⟩
      · exact .inl (.up passes)
      · exact .inr ⟨name, ends.up⟩
    | down step =>
      obtain ⟨component, others, rfl, same, remain⟩ := exists_of_moves_cons moved nofun
      cases component <;> cases same
      obtain ⟨short, goes⟩ := descends_of_walkOn walked
      cases goes with
      | enters stands further =>
        rcases ih remain further with passes | ⟨name, ends⟩
        · exact .inl (.down short stands passes)
        · exact .inr ⟨name, ends.down short stands⟩
      | follows stands => exact absurd stands plain.entry?_ne_link
      -- what is no directory is the end of the walk
      | ends stands noDirectory _ last =>
        rw [last] at remain
        obtain rfl := List.map_eq_nil_iff.mp remain.symm
        have other : tree.entry? (here ++ [step]) ≠ some .directory := by
          rw [stands]
          exact mt Option.some.inj noDirectory
        have ends : tree.Ends here ([] ++ [.name step]) step (here ++ [step]) :=
          .below .stop short other
        exact .inr ⟨step, ends⟩

/-! ### Paths by what is written in them -/

/-- No length and no character of the text keeps the path from being followed. -/
structure Fits (path : Path) : Prop where
  noNul : '\x00' ∉ path.text.toList
  short : path.text.length < pathLimit

section

variable {path : Path} {name : String}

theorem Fits.locate (fits : Fits path) (isAbsolute : path.isAbsolute = true) (tree : FileTree) :
    ∃ follow, tree.walk {} linkLimit = tree.walkOn {} follow ∧
      tree.locate path {} = tree.walkOn {} follow [] (stepsOf path) := by
  obtain ⟨follow, same⟩ := tree.exists_walk_eq {}
  refine ⟨follow, same, ?_⟩
  have spoken := Path.text_ne_of_isAbsolute isAbsolute
  rw [FileTree.locate, if_neg (by simpa using fits.noNul), if_neg (by simpa using spoken),
    if_neg (Nat.not_le_of_lt fits.short), if_pos isAbsolute, same]

/-- What an absolute path leads to, if it leads through directories only. -/
theorem Passes.locate (passes : tree.Passes [] path.written there)
    (isAbsolute : path.isAbsolute = true) (fits : Fits path) :
    tree.locate path {} = .ok there := by
  obtain ⟨follow, -, located⟩ := fits.locate isAbsolute tree
  have walked : tree.walkOn {} follow [] (stepsOf path ++ []) = .ok there :=
    passes.walkOn_append (moves_stepsOf path) []
  rw [List.append_nil] at walked
  rw [located, walked]

theorem noNul_of_locate (located : tree.locate path {} = .ok place) :
    '\x00' ∉ path.text.toList := by
  unfold FileTree.locate at located
  split at located
  next => cases located
  next noNul => simpa using noNul

theorem fits_of_child (isAbsolute : path.isAbsolute = true) (named : IsName name)
    (noNul : '\x00' ∉ path.text.toList) (noNul' : '\x00' ∉ name.toList)
    (short : (path.child name).text.length < pathLimit) :
    Fits path ∧ Fits (path.child name) := by
  have text := Path.text_child isAbsolute named.whole
  refine ⟨⟨noNul, ?_⟩, ⟨fun nul => ?_, short⟩⟩
  · rw [text, String.length_append] at short
    omega
  · rcases Path.mem_child isAbsolute named.whole (by decide) nul with among | among
    · exact noNul among
    · exact noNul' among

/-- What holds for a path with a name behind it holds for one above it as well. -/
theorem Fits.child_of_above {above : Path} (fits : Fits (path.child name))
    (further : above.Above path) (isAbsolute : path.isAbsolute = true) (named : IsName name) :
    Fits (above.child name) := by
  obtain ⟨rest, nonempty, text⟩ := further.further
  have whole := Path.text_child isAbsolute named.whole
  have part := Path.text_child further.isAbsolute named.whole
  constructor
  · intro nul
    refine fits.noNul ?_
    rw [whole, String.toList_append, String.toList_append, text]
    rcases Path.mem_child further.isAbsolute named.whole (by decide) nul with among | among
    · simp [among]
    · simp [among]
  -- The shorter path has fewer bytes, by those that stand behind it.
  · have size : path.text.length =
        above.text.length + (String.ofList rest).length := by
      rw [← String.length_append]
      exact congrArg String.length (String.toList_inj.mp (by simp [text]))
    have more : (String.ofList rest).length ≠ 0 := by
      rw [String.length_ofList]
      exact List.length_eq_zero_iff.not.mpr nonempty
    have short := fits.short
    have slash : "/".length = 1 := rfl
    have empty : "".length = 0 := rfl
    rw [whole, String.length_append, String.length_append] at short
    rw [part, String.length_append, String.length_append]
    split at short <;> split <;> omega

theorem stepsOf_child (isAbsolute : path.isAbsolute = true) (named : IsName name) :
    ∃ steps, stepsOf (path.child name) = steps ++ [.down name] ∧
      moves steps = path.written.map stepBy := by
  have spoken := Path.text_ne_of_isAbsolute isAbsolute
  obtain ⟨segment, body, segments, -⟩ := Path.segments_child named.whole spoken
  have steps : stepsOf (path.child name) = (segment :: body).map stepOf ++ [.down name] := by
    rw [stepsOf, segments, ← List.cons_append, List.map_append, List.map_singleton, named.stepOf]
  refine ⟨_, steps, ?_⟩
  have moved := moves_stepsOf (path.child name)
  rw [steps, moves_append, Path.written_child isAbsolute named, List.map_append] at moved
  exact List.append_cancel_right moved

/-- A file directly in the last directory of a path. -/
theorem Passes.locate_child (passes : tree.Passes [] path.written there)
    (isAbsolute : path.isAbsolute = true) (named : IsName name)
    (short : name.length ≤ nameLimit) (fits : Fits (path.child name)) {content : ByteArray}
    {executable : Bool} (stands : tree.entry? (there ++ [name]) = some (.file content executable)) :
    tree.locate (path.child name) {} = .ok (there ++ [name]) := by
  have isAbsolute' := Path.isAbsolute_child_of_isAbsolute isAbsolute name
  obtain ⟨follow, -, located⟩ := fits.locate isAbsolute' tree
  obtain ⟨steps, split, moved⟩ := stepsOf_child isAbsolute named
  rw [located, split, passes.walkOn_append moved]
  simp only [walkOn]
  rw [if_neg (Nat.not_lt_of_le short), stands]
  rfl

/-- A path goes down to a file if it leads through directories to the one in which that is. -/
theorem Plain.isFile_child_iff (plain : tree.Plain) (isAbsolute : path.isAbsolute = true)
    (named : IsName name) (short : name.length ≤ nameLimit) (fits : Fits (path.child name)) :
    tree.isFile (path.child name) = true ↔
      ∃ there content executable, tree.Passes [] path.written there ∧
        tree.entry? (there ++ [name]) = some (.file content executable) := by
  constructor
  -- The walk to the file passes all names or ends at the last of them, and passing them it would
  -- end at a directory.
  · intro isFile
    obtain ⟨content, executable, found⟩ := isFile_iff.mp isFile
    obtain ⟨place, located, stands⟩ := find_eq_ok_iff.mp found
    have isAbsolute' := Path.isAbsolute_child_of_isAbsolute isAbsolute name
    obtain ⟨-, walked⟩ := walk_of_locate located
    obtain ⟨follow, same, -⟩ := fits.locate isAbsolute' tree
    rw [if_pos isAbsolute', same] at walked
    rcases plain.passes_or_ends (moves_stepsOf _) walked with passes | ⟨other, ends⟩
    · -- the place would be a directory
      have directory := passes.inside (Inside.root tree) place (List.prefix_refl _)
      cases directory.symm.trans stands
    · rw [Path.written_child isAbsolute named] at ends
      obtain ⟨front, there, shape, rfl, passes⟩ := ends.exists_front
      obtain ⟨same, last⟩ := List.append_inj' shape rfl
      cases last
      exact ⟨there, content, executable, same ▸ passes, stands⟩
  · rintro ⟨there, content, executable, passes, stands⟩
    have located := passes.locate_child isAbsolute named short fits stands
    exact isFile_iff.mpr ⟨content, executable, find_eq_ok_iff.mpr ⟨_, located, stands⟩⟩

end

end FileTree

end SuiteRunner.Files
