import SuiteRunner.Proofs.Files.Descent
import SuiteRunner.Proofs.Path.Absolute

/-!
# Where paths lead, links followed

Whatever links an absolute path goes through, it ends at a place with nothing but directories
above it, and no link stands there. So nothing lies behind a file, and the identity of a file
can lie at or above its path only if it is spelled like the path.
-/

namespace SuiteRunner.Files.FileTree

variable {tree : FileTree} {path : Path} {place here : Place}
  {follow : String → Place → List Step → Except Failure Place}

/-- Directories all the way down to the place, and at it. -/
def Inside (tree : FileTree) (place : Place) : Prop :=
  ∀ above, above <+: place → tree.entry? above = some .directory

/-- Something other than a link stands at the place, with directories above it. -/
structure Stands (tree : FileTree) (place : Place) : Prop where
  above : ∀ above, above <+: place → above ≠ place → tree.entry? above = some .directory
  here : ∃ entry, tree.entry? place = some entry ∧ isLink entry = false

theorem Inside.root (tree : FileTree) : tree.Inside [] := by
  intro above within
  rw [List.prefix_nil.mp within]
  rfl

theorem Inside.stands (inside : tree.Inside place) : tree.Stands place :=
  ⟨fun above within _ => inside above within, .directory, inside place (List.prefix_refl _), rfl⟩

theorem Inside.up (inside : tree.Inside place) : tree.Inside place.dropLast :=
  fun above within => inside above (within.trans (List.dropLast_prefix place))

theorem Inside.down {name : String} (inside : tree.Inside place)
    (stands : tree.entry? (place ++ [name]) = some .directory) : tree.Inside (place ++ [name]) := by
  intro above within
  rcases List.prefix_concat_iff.mp within with rfl | within
  · exact stands
  · exact inside above within

/-- What stands in a directory has directories above it. -/
theorem Inside.stands_child {name : String} {entry : Entry} (inside : tree.Inside place)
    (stands : tree.entry? (place ++ [name]) = some entry) (noLink : isLink entry = false) :
    tree.Stands (place ++ [name]) := by
  refine ⟨fun above within different => ?_, entry, stands, noLink⟩
  rcases List.prefix_concat_iff.mp within with same | within
  · exact absurd same different
  · exact inside above within

/-! ### Walking -/

/-- A walk ends at a standing place, if it does so behind each link. -/
theorem walkOn_stands {steps : List Step}
    (follows : ∀ target here steps place, tree.Inside here →
      follow target here steps = .ok place → tree.Stands place)
    (inside : tree.Inside here) (walked : tree.walkOn {} follow here steps = .ok place) :
    tree.Stands place := by
  induction steps generalizing here with
  | nil =>
    cases walked
    exact inside.stands
  | cons step steps ih =>
    cases step with
    | stay => exact ih inside walked
    | up => exact ih inside.up walked
    | down name =>
      cases (descends_of_walkOn walked).2 with
      | enters stands further => exact ih (inside.down stands) further
      | follows _ further => exact follows _ _ _ _ inside further
      | ends stands _ noLink => exact inside.stands_child stands noLink

theorem walk_stands {links : Nat} {steps : List Step} (inside : tree.Inside here)
    (walked : tree.walk {} links here steps = .ok place) : tree.Stands place := by
  -- Each link that is followed leaves one less.
  induction links generalizing here steps place with
  | zero => exact walkOn_stands (fun _ _ _ _ _ failed => by cases failed) inside walked
  | succ links ih =>
    refine walkOn_stands (fun target here steps place inside followed => ?_) inside walked
    dsimp only at followed
    split at followed
    next => cases followed
    next =>
      refine ih ?_ followed
      split
      next => exact Inside.root tree
      next => exact inside

/-- An absolute path leads to a standing place. -/
theorem stands_of_locate (isAbsolute : path.isAbsolute = true)
    (located : tree.locate path {} = .ok place) : tree.Stands place := by
  obtain ⟨-, walked⟩ := walk_of_locate located
  rw [if_pos isAbsolute] at walked
  exact walk_stands (Inside.root tree) walked

/-- In a directory of the tree, relative paths lead to standing places as well. -/
theorem Inside.stands_of_locate (inside : tree.Inside tree.workingDirectory)
    (located : tree.locate path {} = .ok place) : tree.Stands place := by
  obtain ⟨-, walked⟩ := walk_of_locate located
  refine walk_stands ?_ walked
  split
  next => exact Inside.root tree
  next => exact inside

/-! ### Going where something stands -/

/-- Going down by the names of a standing place leads to it, because there are no links on the
way. -/
theorem Stands.walkOn_down {names : List String} (stands : tree.Stands (here ++ names))
    (walked : tree.walkOn {} follow here (names.map .down) = .ok place) :
    place = here ++ names := by
  induction names generalizing here with
  | nil =>
    cases walked
    exact (List.append_nil _).symm
  | cons name names ih =>
    rw [List.append_cons] at stands ⊢
    have directory (further : names ≠ []) : tree.entry? (here ++ [name]) = some .directory :=
      stands.above _ (List.prefix_append _ _) (by simpa using further)
    cases (descends_of_walkOn walked).2 with
    | enters _ further => exact ih stands further
    | follows link =>
      -- A link stands neither on the way nor at its end.
      by_cases last : names = []
      · rw [last, List.append_nil] at stands
        obtain ⟨entry, here, noLink⟩ := stands.here
        cases here.symm.trans link
        cases noLink
      · cases (directory last).symm.trans link
    | ends _ _ _ last => rw [List.map_eq_nil_iff.mp last, List.append_nil]

theorem Stands.locate_path (valid : IsPlace place) (stands : tree.Stands place)
    {found : Place} (located : tree.locate (Place.path place) {} = .ok found) : found = place :=
  locate_path_of_down valid (fun _ _ => Stands.walkOn_down (by simpa using stands)) located

/-- The canonical form of a path is its own canonical form, if it can be followed. -/
theorem Inside.canonical?_canonical (inside : tree.Inside tree.workingDirectory)
    (named : tree.Named) {canonical : Path} (found : tree.canonical? path = some canonical)
    (leads : tree.isDirectory canonical = true) : tree.canonical? canonical = some canonical := by
  unfold canonical? at found
  split at found
  next place located =>
    cases found
    have stands := inside.stands_of_locate located
    have valid : IsPlace place := by
      obtain ⟨entry, here, -⟩ := stands.here
      by_cases empty : place = []
      · rw [empty]
        exact List.forall_mem_nil _
      · exact named _ (Plain.mem_entries empty here)
    obtain ⟨found, located', -⟩ := find_eq_ok_iff.mp (isDirectory_iff.mp leads)
    rw [canonical?, located', stands.locate_path valid located']
  next => cases found

/-! ### Behind a file -/

/-- No walk goes on behind what is neither a directory nor a link. -/
theorem walkOn_ne_ok_of_behind {steps others : List Step} {names : List String} {entry : Entry}
    (above : ∀ above, above <+: here ++ names → above ≠ here ++ names →
      tree.entry? above = some .directory)
    (stands : tree.entry? (here ++ names) = some entry) (noDirectory : entry ≠ .directory)
    (noLink : isLink entry = false) (nonempty : names ≠ []) (further : others ≠ [])
    (spelled : steps.filter (· ≠ .stay) = names.map .down ++ others) :
    tree.walkOn {} follow here steps ≠ .ok place := by
  obtain ⟨first, names, rfl⟩ := List.exists_cons_of_ne_nil nonempty
  induction steps generalizing here first names with
  | nil => cases spelled
  | cons step steps ih =>
    cases step with
    | stay => exact ih first names above stands nonempty (by simpa using spelled)
    | up => simp at spelled
    | down name =>
      simp only [ne_eq, reduceCtorEq, not_false_eq_true, decide_true, List.filter_cons_of_pos,
        List.map_cons, List.cons_append, List.cons.injEq, Step.down.injEq] at spelled
      obtain ⟨rfl, spelled⟩ := spelled
      rw [List.append_cons] at above stands
      intro walked
      have goes := (descends_of_walkOn walked).2
      cases names with
      | nil =>
        -- This is the place itself, and there are steps left.
        rw [List.append_nil] at stands
        cases goes with
        | enters stands' =>
          cases stands.symm.trans stands'
          exact noDirectory rfl
        | follows stands' =>
          cases stands.symm.trans stands'
          cases noLink
        | ends _ _ _ last =>
          rw [last] at spelled
          exact further spelled.symm
      | cons next names =>
        have directory : tree.entry? (here ++ [name]) = some .directory :=
          above _ (List.prefix_append _ _) (by simp)
        cases goes with
        | enters _ walked => exact ih next names above stands (List.cons_ne_nil _ _) spelled walked
        | follows stands' => cases directory.symm.trans stands'
        | ends stands' noDirectory' =>
          cases directory.symm.trans stands'
          exact noDirectory' rfl

/-- The identity of what is no directory lies at or above its path only if it is spelled like
the path. -/
theorem same_key_of_prefix (named : tree.Named) (noDirectory : tree.isDirectory path = false)
    (within : (tree.key path).components <+: path.components) :
    (tree.key path).same path = true := by
  -- Whatever has a first component that is the root is absolute.
  have rooted : (tree.key path).isAbsolute = true → path.isAbsolute = true := by
    intro isAbsolute
    obtain ⟨rest, spelled⟩ := Path.isAbsolute_iff.mp isAbsolute
    obtain ⟨more, whole⟩ := within
    exact Path.isAbsolute_iff.mpr ⟨rest ++ more, by rw [← whole, spelled]; rfl⟩
  cases located : tree.locate path {} with
  | error failure =>
    have key : tree.key path =
        (Path.absolute? tree.workingDirectory.path path).getD path := by
      simp only [FileTree.key, canonical?, located, Option.getD_none]
    cases made : Path.absolute? tree.workingDirectory.path path with
    | none => rw [key, made]; exact Path.same_iff.mpr rfl
    | some absolute =>
      rw [key, made, Option.getD_some] at rooted ⊢
      have isAbsolute := Path.isAbsolute_of_absolute? (Place.isAbsolute_path _) made
      exact Path.same_iff.mpr (Path.components_of_absolute? (rooted isAbsolute) made)
  | ok place =>
    have key : tree.key path = Place.path place := by
      simp only [FileTree.key, canonical?, located, Option.getD_some]
    rw [key] at within rooted ⊢
    have isAbsolute := rooted (Place.isAbsolute_path place)
    obtain ⟨above, entry, stands, noLink⟩ := stands_of_locate isAbsolute located
    have noDirectory' : entry ≠ .directory := by
      rintro rfl
      rw [isDirectory_iff.mpr (find_eq_ok_iff.mpr ⟨place, located, stands⟩)] at noDirectory
      cases noDirectory
    have nonempty : place ≠ [] := by
      rintro rfl
      cases stands
      exact noDirectory' rfl
    have valid : IsPlace place := named _ (Plain.mem_entries nonempty stands)
    obtain ⟨more, whole⟩ := within
    rw [Place.components_path valid] at whole
    -- If the path went on behind the place, it would lead nowhere.
    by_cases further : more = []
    · rw [Path.same_iff, Place.components_path valid, ← whole, further, List.append_nil]
    · exfalso
      obtain ⟨-, walked⟩ := walk_of_locate located
      obtain ⟨-, body, segments, spelled⟩ := Path.segments_of_root whole.symm
      have steps : (stepsOf path).filter (· ≠ .stay) = place.map .down ++ more.map stepBy := by
        have silent : Path.component? [] = none := rfl
        rw [stepsOf, segments, filter_stepOf, List.filterMap_cons_none silent, spelled]
        simp [stepBy]
      obtain ⟨follow, same⟩ := tree.exists_walk_eq {}
      rw [if_pos isAbsolute, same] at walked
      rw [← List.nil_append place] at above stands
      exact walkOn_ne_ok_of_behind above stands noDirectory' noLink nonempty
        (by simpa using further) steps walked

end SuiteRunner.Files.FileTree
