import SuiteRunner.Proofs.Files.Standing
import SuiteRunner.Proofs.Path.Joining

/-!
# Spellings of a path

Two spellings with the same components lead to one place, whatever links are on the way, as long as
both lead anywhere at all: one of them may fail where the other does not, as it does with a slash
behind the name of a file. Two spellings that end alike go on in the same way to the end, unless one
of them is too long. And a path that is spelled like a canonical one has that identity, or one that
is spelled like it.
-/

namespace SuiteRunner.Files.FileTree

variable {tree : FileTree} {path other : Path} {place place' here : Place}
  {follow : String → Place → List Step → Except Failure Place}

/-- What is left of some steps without those that stay. -/
def moves (steps : List Step) : List Step := steps.filter (· ≠ .stay)

theorem moves_append (steps more : List Step) : moves (steps ++ more) = moves steps ++ moves more :=
  List.filter_append ..

theorem exists_of_moves {steps others : List Step} {step : Step}
    (moved : moves steps = step :: others) :
    ∃ stays rest, steps = stays ++ step :: rest ∧ (∀ idle ∈ stays, idle = .stay) ∧
      moves rest = others := by
  obtain ⟨stays, rest, split, idle, -, same⟩ := List.filter_eq_cons_iff.mp moved
  exact ⟨stays, rest, split, fun step member => by simpa using idle step member, same⟩

theorem idle_of_moves {steps : List Step} (moved : moves steps = []) :
    ∀ step ∈ steps, step = .stay :=
  fun step member => by simpa using List.filter_eq_nil_iff.mp moved step member

/-- The same moves end in one place, if they do so behind each link. -/
theorem walkOn_unique {steps steps' : List Step}
    (follows : ∀ target here steps steps' place place', moves steps = moves steps' →
      follow target here steps = .ok place → follow target here steps' = .ok place' →
      place = place')
    (same : moves steps = moves steps') (walked : tree.walkOn {} follow here steps = .ok place)
    (walked' : tree.walkOn {} follow here steps' = .ok place') : place = place' := by
  induction steps generalizing here steps' with
  | nil =>
    cases walked
    rw [walkOn_stays (idle_of_moves same.symm)] at walked'
    exact Except.ok.inj walked'
  | cons step steps ih =>
    cases step with
    | stay => exact ih same walked walked'
    | up =>
      obtain ⟨stays, rest, rfl, idle, same⟩ := exists_of_moves same.symm
      rw [walkOn_idle idle] at walked'
      exact ih same.symm walked walked'
    | down name =>
      obtain ⟨stays, rest, rfl, idle, same⟩ := exists_of_moves same.symm
      rw [walkOn_idle idle] at walked'
      have same : moves steps = moves rest := same.symm
      have goes := (descends_of_walkOn walked).2
      -- What stands there decides how both go on.
      cases (descends_of_walkOn walked').2 with
      | enters stands' further' =>
        cases goes with
        | enters _ further => exact ih same further further'
        | follows stands => cases stands.symm.trans stands'
        | ends stands noDirectory =>
          cases stands.symm.trans stands'
          exact absurd rfl noDirectory
      | follows stands' further' =>
        cases goes with
        | enters stands => cases stands.symm.trans stands'
        | follows stands further =>
          cases stands.symm.trans stands'
          exact follows _ _ _ _ _ _ same further further'
        | ends stands _ noLink =>
          cases stands.symm.trans stands'
          cases noLink
      | ends stands' noDirectory noLink =>
        cases goes with
        | enters stands =>
          cases stands.symm.trans stands'
          exact absurd rfl noDirectory
        | follows stands =>
          cases stands.symm.trans stands'
          cases noLink
        | ends => rfl

theorem walk_unique {links : Nat} {steps steps' : List Step} (same : moves steps = moves steps')
    (walked : tree.walk {} links here steps = .ok place)
    (walked' : tree.walk {} links here steps' = .ok place') : place = place' := by
  -- Each link that is followed leaves one less.
  induction links generalizing here steps steps' place place' with
  | zero => exact walkOn_unique (fun _ _ _ _ _ _ _ failed => by cases failed) same walked walked'
  | succ links ih =>
    refine walkOn_unique (fun target here steps steps' place place' same => ?_) same walked walked'
    dsimp only
    split
    next => exact fun failed => by cases failed
    next =>
      intro followed followed'
      refine ih ?_ followed followed'
      rw [moves_append, moves_append, same]

theorem moves_stepsOf (path : Path) : moves (stepsOf path) = path.written.map stepBy :=
  filter_stepOf path.segments

theorem moves_of_same (same : path.same other = true) :
    moves (stepsOf path) = moves (stepsOf other) := by
  rw [moves_stepsOf, moves_stepsOf, Path.written_eq_of_same same]

/-- Two spellings of a path lead to one place, if both lead anywhere. -/
theorem locate_unique (same : path.same other = true)
    (located : tree.locate path {} = .ok place) (located' : tree.locate other {} = .ok place') :
    place = place' := by
  obtain ⟨-, walked⟩ := walk_of_locate located
  obtain ⟨-, walked'⟩ := walk_of_locate located'
  rw [Path.isAbsolute_eq_of_same same] at walked
  exact walk_unique (moves_of_same same) walked walked'

/-! ### Spellings that end alike -/

/-- The same moves with the same steps behind them come to the same, if they do so behind each
link. -/
theorem walkOn_alike {steps steps' tail : List Step} (further : tail ≠ [])
    (follows : ∀ target here rest rest', moves rest = moves rest' →
      follow target here (rest ++ tail) = follow target here (rest' ++ tail))
    (same : moves steps = moves steps') (here : Place) :
    tree.walkOn {} follow here (steps ++ tail) = tree.walkOn {} follow here (steps' ++ tail) := by
  induction steps generalizing here steps' with
  | nil => rw [walkOn_idle (idle_of_moves same.symm), List.nil_append]
  | cons step steps ih =>
    cases step with
    | stay => exact ih same here
    | up =>
      obtain ⟨stays, rest, rfl, idle, same⟩ := exists_of_moves same.symm
      rw [List.append_assoc, walkOn_idle idle]
      exact ih same.symm here.dropLast
    | down name =>
      obtain ⟨stays, rest, rfl, idle, same⟩ := exists_of_moves same.symm
      have same : moves steps = moves rest := same.symm
      -- There is more to come on both sides, so nothing but a directory or a link will do.
      have goesOn (rest : List Step) : (rest ++ tail).isEmpty = false := by simp [further]
      rw [List.append_assoc, walkOn_idle idle]
      simp only [List.cons_append, walkOn, goesOn, ih same, follows _ _ _ _ same, Bool.false_and]

theorem walk_alike {links : Nat} {steps steps' tail : List Step} (further : tail ≠ [])
    (same : moves steps = moves steps') (here : Place) :
    tree.walk {} links here (steps ++ tail) = tree.walk {} links here (steps' ++ tail) := by
  induction links generalizing here steps steps' with
  | zero => exact walkOn_alike further (fun _ _ _ _ _ => rfl) same here
  | succ links ih =>
    refine walkOn_alike further (fun target here rest rest' same => ?_) same here
    dsimp only
    split
    next => rfl
    next =>
      rw [← List.append_assoc, ← List.append_assoc]
      apply ih
      rw [moves_append, moves_append, same]

/-- Two spellings of a path that end alike find the same, unless one is too long for a path. -/
theorem find_alike {front front' tail : List (List Char)} (same : path.same other = true)
    (ends : path.segments = front ++ tail) (ends' : other.segments = front' ++ tail)
    (further : tail ≠ []) (short : path.text.length < pathLimit)
    (short' : other.text.length < pathLimit) : tree.find path = tree.find other := by
  -- Both paths end in the same segments, and in front of them they move alike, so the two walks
  -- come to the same end.
  have steps : stepsOf path = front.map stepOf ++ tail.map stepOf := by
    rw [stepsOf, ends, List.map_append]
  have steps' : stepsOf other = front'.map stepOf ++ tail.map stepOf := by
    rw [stepsOf, ends', List.map_append]
  have moved : moves (front.map stepOf) = moves (front'.map stepOf) := by
    have all := moves_of_same same
    rw [steps, steps', moves_append, moves_append] at all
    exact List.append_cancel_right all
  -- Either both paths can be looked up at all or neither can.
  have noNul : path.text.toList.contains '\x00' = other.text.toList.contains '\x00' := by
    rw [Bool.eq_iff_iff, List.contains_iff_mem, List.contains_iff_mem,
      Path.mem_text_iff (by decide) (by decide), Path.mem_text_iff (by decide) (by decide),
      Path.written_eq_of_same same]
  have spoken : path.text.isEmpty = other.text.isEmpty := by
    rw [Bool.eq_iff_iff, String.isEmpty_iff, String.isEmpty_iff]
    have same' := (Path.same_comm other path).trans same
    exact not_iff_not.mp ⟨Path.spoken_of_same same, Path.spoken_of_same same'⟩
  have located : tree.locate path {} = tree.locate other {} := by
    unfold locate
    rw [noNul, spoken, if_neg (Nat.not_le_of_lt short), if_neg (Nat.not_le_of_lt short'),
      Path.isAbsolute_eq_of_same same, steps, steps',
      walk_alike (mt List.map_eq_nil_iff.mp further) moved]
  rw [find, find, located]

/-! ### Canonical paths -/

section

variable {canonical : Path}

/-- The canonical form of a path is its own canonical form. -/
def Idempotent (tree : FileTree) : Prop :=
  ∀ path canonical, tree.canonical? path = some canonical →
    tree.canonical? canonical = some canonical

theorem canonical?_eq_some_iff :
    tree.canonical? path = some canonical ↔
      ∃ place, tree.locate path {} = .ok place ∧ canonical = Place.path place := by
  unfold canonical?
  cases tree.locate path {} <;> simp [eq_comm]

theorem key_of_canonical? (found : tree.canonical? path = some canonical) :
    tree.key path = canonical := by
  rw [FileTree.key, found, Option.getD_some]

theorem canonical?_of_find {entry : Entry} (found : tree.find path = .ok entry) :
    tree.canonical? path = some (tree.key path) := by
  obtain ⟨place, located, -⟩ := find_eq_ok_iff.mp found
  have canonical := canonical?_eq_some_iff.mpr ⟨place, located, rfl⟩
  rw [key_of_canonical? canonical, canonical]

/-- An identity is absolute, unless it is empty. -/
theorem isAbsolute_key (spoken : (tree.key path).text ≠ "") :
    (tree.key path).isAbsolute = true := by
  cases leads : tree.canonical? path with
  | some canonical =>
    obtain ⟨place, -, written⟩ := canonical?_eq_some_iff.mp leads
    rw [key_of_canonical? leads, written]
    exact Place.isAbsolute_path place
  | none =>
    rw [FileTree.key, leads, Option.getD_none] at spoken ⊢
    cases made : Path.absolute? tree.workingDirectory.path path with
    | some absolute => exact Path.isAbsolute_of_absolute? (Place.isAbsolute_path _) made
    | none =>
      rw [made, Option.getD_none] at spoken
      rw [Path.absolute?_of_spoken spoken] at made
      cases made

/-- The identity of a path that leads nowhere is spelled like it, if it is spelled like any
identity. -/
theorem same_key_of_nowhere (same : (tree.key path).same other = true)
    (nowhere : tree.canonical? other = none) : (tree.key other).same other = true := by
  rw [FileTree.key, nowhere, Option.getD_none]
  cases made : Path.absolute? tree.workingDirectory.path other with
  | none => exact Path.same_iff.mpr rfl
  | some absolute =>
    have same' := (Path.same_comm _ _).trans same
    have spoken := Path.spoken_of_same same' (Path.spoken_of_absolute? made)
    have isAbsolute := (Path.isAbsolute_eq_of_same same).symm.trans (isAbsolute_key spoken)
    exact Path.same_iff.mpr (Path.components_of_absolute? isAbsolute made)

/-- A path that is spelled like a canonical one has that identity, if it leads anywhere. -/
theorem key_of_same (found : tree.canonical? canonical = some canonical)
    (same : canonical.same path = true) (leads : tree.canonical? path ≠ none) :
    tree.key path = canonical := by
  obtain ⟨place, located, written⟩ := canonical?_eq_some_iff.mp found
  obtain ⟨other, leads⟩ := Option.ne_none_iff_exists'.mp leads
  obtain ⟨place', located', written'⟩ := canonical?_eq_some_iff.mp leads
  rw [key_of_canonical? leads, written', written, locate_unique same located located']

/-- And if it leads nowhere, its identity is spelled like it. -/
theorem same_key_of_same (found : tree.canonical? canonical = some canonical)
    (same : canonical.same path = true) : (tree.key path).same path = true := by
  by_cases leads : tree.canonical? path = none
  · rw [← key_of_canonical? found] at same
    exact same_key_of_nowhere same leads
  · rwa [key_of_same found same leads]

/-- The identity of a path leads somewhere, if the identity of the identity does. -/
theorem canonical?_key (idempotent : tree.Idempotent) (named : IsPlace tree.workingDirectory)
    {entry : Entry} (found : tree.find (tree.key (tree.key path)) = .ok entry) :
    tree.canonical? (tree.key path) ≠ none := by
  intro nowhere
  cases leads : tree.canonical? path with
  | some canonical =>
    rw [key_of_canonical? leads, idempotent _ _ leads] at nowhere
    cases nowhere
  | none =>
    -- The absolute form is its own absolute form.
    have again : tree.key (tree.key path) = tree.key path := by
      conv_lhs => rw [FileTree.key, nowhere, Option.getD_none]
      rw [FileTree.key, leads, Option.getD_none]
      cases made : Path.absolute? tree.workingDirectory.path path with
      | none => rw [Option.getD_none, made, Option.getD_none]
      | some absolute =>
        rw [Option.getD_some, Path.absolute?_absolute named made, Option.getD_some]
    rw [again] at found
    cases (canonical?_of_find found).symm.trans nowhere

/-- Canonical forms are their own canonical forms, if the path of everything in the tree can be
followed. -/
theorem idempotent_of_entries (inside : tree.Inside tree.workingDirectory)
    (leads : ∀ standing ∈ tree.entries, isLink standing.2 = false →
      tree.canonical? (Place.path standing.1) = some (Place.path standing.1)) :
    tree.Idempotent := by
  intro path canonical found
  obtain ⟨place, located, rfl⟩ := canonical?_eq_some_iff.mp found
  obtain ⟨standing, stands, noLink⟩ := (inside.stands_of_locate located).here
  by_cases empty : place = []
  · rw [empty]
    exact canonical?_eq_some_iff.mpr ⟨[], rfl, rfl⟩
  · exact leads (place, standing) (Plain.mem_entries empty stands) noLink

end

end SuiteRunner.Files.FileTree
