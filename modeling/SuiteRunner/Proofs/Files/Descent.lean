import SuiteRunner.Proofs.Files.Plain
import SuiteRunner.Proofs.Path.Components

/-!
# Going down in a tree without links

However a path is spelled, going down from it by a name leads from the place of the path to the
place of that name in it, if it leads anywhere.
-/

namespace SuiteRunner.Files.FileTree

variable {tree : FileTree} {path : Path} {place place' here : Place} {name : String}
  {follow : String → Place → List Step → Except Failure Place}

/-- Steps that stay lead nowhere else. -/
theorem walkOn_idle {mode : Mode} {stays : List Step} (idle : ∀ step ∈ stays, step = .stay)
    (steps : List Step) :
    tree.walkOn mode follow here (stays ++ steps) = tree.walkOn mode follow here steps := by
  induction stays with
  | nil => rfl
  | cons step stays ih =>
    obtain rfl := idle step List.mem_cons_self
    exact ih fun step member => idle step (List.mem_cons_of_mem _ member)

theorem walkOn_stays {mode : Mode} {stays : List Step} (idle : ∀ step ∈ stays, step = .stay) :
    tree.walkOn mode follow here stays = .ok here := by
  rw [← List.append_nil stays, walkOn_idle idle]
  rfl

/-- What a step down to a name comes to. A walk goes on in a directory or behind a link; with
anything else it is at its end. -/
inductive Descends (tree : FileTree) (follow : String → Place → List Step → Except Failure Place)
    (here : Place) (name : String) (steps : List Step) : Place → Prop where
  | enters {place : Place} (stands : tree.entry? (here ++ [name]) = some .directory)
      (further : tree.walkOn {} follow (here ++ [name]) steps = .ok place) :
      Descends tree follow here name steps place
  | follows {place : Place} {target : String}
      (stands : tree.entry? (here ++ [name]) = some (.link target))
      (further : follow target here steps = .ok place) :
      Descends tree follow here name steps place
  | ends {entry : Entry} (stands : tree.entry? (here ++ [name]) = some entry)
      (noDirectory : entry ≠ .directory) (noLink : isLink entry = false) (last : steps = []) :
      Descends tree follow here name steps (here ++ [name])

theorem descends_of_walkOn {steps : List Step}
    (walked : tree.walkOn {} follow here (.down name :: steps) = .ok place) :
    name.length ≤ nameLimit ∧ tree.Descends follow here name steps place := by
  simp only [walkOn] at walked
  split at walked
  next => cases walked
  next short =>
    refine ⟨Nat.le_of_not_lt short, ?_⟩
    cases stands : tree.entry? (here ++ [name]) with
    | none => simp [stands] at walked
    | some entry =>
      -- A file and a sink end the walk, which is an answer only behind the last step.
      have ends (noDirectory : entry ≠ .directory) (noLink : isLink entry = false)
          (walked : (if steps.isEmpty then .ok (here ++ [name]) else .error .notADirectory) =
            (.ok place : Except Failure Place)) : tree.Descends follow here name steps place := by
        split at walked
        next last =>
          cases walked
          exact .ends stands noDirectory noLink (List.isEmpty_iff.mp last)
        next => cases walked
      cases entry with
      | directory =>
        simp only [stands] at walked
        exact .enters stands walked
      | file content executable =>
        simp only [stands] at walked
        exact ends (by simp) rfl walked
      | sink =>
        simp only [stands] at walked
        exact ends (by simp) rfl walked
      | link target =>
        simp only [stands, Bool.not_true, Bool.and_false, Bool.false_eq_true, if_false] at walked
        exact .follows stands walked

/-- The same steps and one down by a name lead to that name in the place. -/
theorem Plain.walkOn_concat (plain : tree.Plain) {steps stays : List Step}
    (idle : ∀ step ∈ stays, step = .stay)
    (walked : tree.walkOn {} follow here (steps ++ stays) = .ok place)
    (walked' : tree.walkOn {} follow here (steps ++ [.down name]) = .ok place') :
    place' = place ++ [name] := by
  induction steps generalizing here with
  | nil =>
    cases (walkOn_stays idle).symm.trans walked
    have single : tree.walkOn {} follow _ ([name].map .down) = .ok place' := walked'
    exact plain.walkOn_down single
  | cons step steps ih =>
    cases step with
    | stay => exact ih walked walked'
    | up => exact ih walked walked'
    | down other =>
      cases (descends_of_walkOn walked').2 with
      | enters stands further' =>
        cases (descends_of_walkOn walked).2 with
        | enters _ further => exact ih further further'
        | follows stands' => exact absurd stands' plain.entry?_ne_link
        | ends stands' noDirectory =>
          cases stands.symm.trans stands'
          exact absurd rfl noDirectory
      | follows stands => exact absurd stands plain.entry?_ne_link
      -- Behind anything else there is no way down.
      | ends _ _ _ last => simp at last

theorem walk_of_locate (located : tree.locate path {} = .ok place) :
    path.text ≠ "" ∧ tree.walk {} linkLimit
      (if path.isAbsolute then [] else tree.workingDirectory) (stepsOf path) = .ok place := by
  unfold locate at located
  split at located
  next => cases located
  next =>
    split at located
    next => cases located
    next spoken =>
      split at located
      next => cases located
      next => exact ⟨by simpa using spoken, located⟩

/-- Going down by a name leads from the place of a path, however that is spelled, to the place of
the name in it. -/
theorem Plain.locate_child (plain : tree.Plain) (named : IsName name)
    (located : tree.locate path {} = .ok place)
    (located' : tree.locate (path.child name) {} = .ok place') : place' = place ++ [name] := by
  obtain ⟨spoken, walked⟩ := walk_of_locate located
  obtain ⟨-, walked'⟩ := walk_of_locate located'
  rw [Path.isAbsolute_child named spoken] at walked'
  obtain ⟨follow, same⟩ := tree.exists_walk_eq {}
  -- The steps to the child are those to the path and one down, with a step that stays between them
  -- where the path ends in a slash.
  obtain ⟨segment, body, segments, before⟩ := Path.segments_child named.whole spoken
  have further : stepsOf (path.child name) =
      (segment :: body).map stepOf ++ [.down name] := by
    rw [stepsOf, segments, ← List.cons_append, List.map_append, List.map_singleton, named.stepOf]
  rw [same, further] at walked'
  rw [same, stepsOf] at walked
  rcases before with slash | ⟨whole, -⟩
  · rw [slash, ← List.cons_append, List.map_append] at walked
    exact plain.walkOn_concat (by simp [stepOf, Path.isSilent]) walked walked'
  · rw [whole, ← List.append_nil (List.map _ _)] at walked
    exact plain.walkOn_concat (List.forall_mem_nil _) walked walked'

/-! ### Spellings of one place -/

/-- The step of a component behind the root. -/
def stepBy : Path.Component → Step
  | .name name => .down name
  | .up => .up
  | .root | .here => .stay

/-- Steps are those of the components, apart from steps that stay. -/
theorem filter_stepOf (segments : List (List Char)) :
    (segments.map stepOf).filter (· ≠ .stay) =
      (segments.filterMap Path.component?).map stepBy := by
  induction segments with
  | nil => rfl
  | cons segment segments ih =>
    rw [List.map_cons, List.filterMap_cons]
    by_cases silent : Path.isSilent segment = true
    · simpa [stepOf, Path.component?, silent] using ih
    · by_cases up : segment = ['.', '.']
      · subst up
        simpa [stepOf, Path.component?, Path.isSilent, stepBy] using ih
      · simpa [stepOf, Path.component?, silent, up, stepBy] using ih

theorem filter_stepOf_names {segments : List (List Char)} {names : List String}
    (spelled : segments.filterMap Path.component? = names.map .name) :
    (segments.map stepOf).filter (· ≠ .stay) = names.map .down := by
  rw [filter_stepOf, spelled, List.map_map]
  rfl

theorem Plain.walkOn_filter (plain : tree.Plain) {steps : List Step} {names : List String}
    (spelled : steps.filter (· ≠ .stay) = names.map .down)
    (walked : tree.walkOn {} follow here steps = .ok place) : place = here ++ names := by
  induction steps generalizing here names with
  | nil =>
    cases walked
    rw [List.map_eq_nil_iff.mp spelled.symm, List.append_nil]
  | cons step steps ih =>
    cases step with
    | stay => exact ih (by simpa using spelled) walked
    | up => cases names <;> simp at spelled
    | down name =>
      obtain ⟨more, rfl, others⟩ : ∃ more, names = name :: more ∧
          steps.filter (· ≠ .stay) = more.map .down := by
        cases names with
        | nil => simp at spelled
        | cons first names =>
          simp only [ne_eq, reduceCtorEq, not_false_eq_true, decide_true, List.filter_cons_of_pos,
            List.map_cons, List.cons.injEq, Step.down.injEq] at spelled
          exact ⟨names, by rw [spelled.1], spelled.2⟩
      cases (descends_of_walkOn walked).2 with
      | enters _ further => rw [ih others further, List.append_assoc, List.singleton_append]
      | follows stands => exact absurd stands plain.entry?_ne_link
      -- Anything else ends the walk, so no name may be left behind it.
      | ends _ _ _ last =>
        rw [last] at others
        rw [List.map_eq_nil_iff.mp others.symm]

/-- A path with the components of a place leads to that place, if it leads anywhere. -/
theorem Plain.locate_of_same (plain : tree.Plain) (valid : IsPlace place')
    (same : path.same (Place.path place') = true) (located : tree.locate path {} = .ok place) :
    place = place' := by
  obtain ⟨spoken, walked⟩ := walk_of_locate located
  obtain ⟨follow, unlinked⟩ := tree.exists_walk_eq {}
  rw [Path.same_iff, Place.components_path valid] at same
  obtain ⟨absolute, body, segments, spelled⟩ := Path.segments_of_root same
  rw [unlinked, if_pos absolute, stepsOf, segments] at walked
  exact plain.walkOn_filter (filter_stepOf_names spelled) walked

/-! ### Directories and their entries -/

theorem names_eq_ok_iff {names : List String} :
    tree.names path = .ok names ↔ ∃ place, tree.locate path {} = .ok place ∧
      tree.entry? place = some .directory ∧ names = tree.namesAt place := by
  unfold FileTree.names
  cases tree.locate path {} with
  | error failure => simp
  | ok place =>
    simp only [Except.ok.injEq, exists_eq_left']
    cases stands : tree.entry? place with
    | none => simp
    | some entry => cases entry <;> simp [eq_comm]

theorem isDirectory_of_names {names : List String} (listed : tree.names path = .ok names) :
    tree.isDirectory path = true := by
  obtain ⟨place, located, stands, -⟩ := names_eq_ok_iff.mp listed
  exact isDirectory_iff.mpr (find_eq_ok_iff.mpr ⟨place, located, stands⟩)

end SuiteRunner.Files.FileTree
