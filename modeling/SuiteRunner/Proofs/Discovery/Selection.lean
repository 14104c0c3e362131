import SuiteRunner.Discovery.Selection
import SuiteRunner.Discovery.Walk
import SuiteRunner.Proofs.Files.Plain

/-!
# Selections of directories

A selection of directories reaches whatever is at, above or below one of them and covers
what is at or below one of them. So a directory that is not reached holds nothing that is
reached or covered.
-/

namespace SuiteRunner.Discovery.Selection

open Files

variable {selection : Selection} {path inner : Path} {component : Path.Component}
  {tree : FileTree}

/-- The same names in the whole suite. -/
def whole (selection : Selection) : Selection := { selection with paths := [] }

theorem reaches_iff (chosen : selection.paths ≠ []) :
    selection.reaches path = true ↔
      ∃ wanted ∈ selection.paths,
        path.components <+: wanted.components ∨ wanted.components <+: path.components := by
  rw [reaches, (List.isEmpty_eq_false_iff).mpr chosen]
  simp only [Bool.false_or, List.any_eq_true, Bool.or_eq_true, Path.startsWith,
    List.isPrefixOf_iff_prefix]

theorem covers_iff (chosen : selection.paths ≠ []) :
    selection.covers path = true ↔
      ∃ wanted ∈ selection.paths, wanted.components <+: path.components := by
  rw [covers, (List.isEmpty_eq_false_iff).mpr chosen]
  simp only [Bool.false_or, List.any_eq_true, Path.startsWith, List.isPrefixOf_iff_prefix]

/-- What is covered lies in a directory that is reached. -/
theorem reaches_of_covers (chosen : selection.paths ≠ [])
    (below : inner.components = path.components ++ [component])
    (covered : selection.covers inner = true) : selection.reaches path = true := by
  obtain ⟨wanted, listed, above⟩ := (covers_iff chosen).mp covered
  refine (reaches_iff chosen).mpr ⟨wanted, listed, ?_⟩
  rw [below, List.prefix_concat_iff] at above
  rcases above with same | above
  · exact Or.inl (same ▸ List.prefix_append _ _)
  · exact Or.inr above

/-- A directory is reached only through a directory that is reached. -/
theorem reaches_of_child (chosen : selection.paths ≠ [])
    (below : inner.components = path.components ++ [component])
    (reached : selection.reaches inner = true) : selection.reaches path = true := by
  obtain ⟨wanted, listed, further | above⟩ := (reaches_iff chosen).mp reached
  · refine (reaches_iff chosen).mpr ⟨wanted, listed, Or.inl ?_⟩
    rw [below] at further
    exact (List.prefix_append _ _).trans further
  · exact reaches_of_covers chosen below ((covers_iff chosen).mpr ⟨wanted, listed, above⟩)

theorem reaches_eq_false (chosen : selection.paths ≠ [])
    (below : inner.components = path.components ++ [component])
    (outside : selection.reaches path = false) : selection.reaches inner = false := by
  rw [← Bool.not_eq_true] at outside ⊢
  exact mt (reaches_of_child chosen below) outside

theorem covers_eq_false (chosen : selection.paths ≠ [])
    (below : inner.components = path.components ++ [component])
    (outside : selection.reaches path = false) : selection.covers inner = false := by
  rw [← Bool.not_eq_true] at outside ⊢
  exact mt (reaches_of_covers chosen below) outside

theorem reaches_congr {other : Path} (same : path.same other = true) :
    selection.reaches path = selection.reaches other := by
  rw [Path.same_iff] at same
  simp only [reaches, Path.startsWith, same]

/-- Whether a finding is selected. -/
def selects (selection : Selection) : Finding → Bool
  | .directory opened => selection.reaches opened.path
  | .test test => selection.covers test.path

/-- All paths are canonical paths of directories. -/
def ofDirectories (selection : Selection) (tree : FileTree) : Prop :=
  ∀ path ∈ selection.paths, ∃ place, tree.Leads path place ∧ tree.entry? place = some .directory

theorem namesFile_eq_false (directories : selection.ofDirectories tree)
    {place : Place} (valid : IsPlace place)
    (noDirectory : tree.isDirectory (Place.path place) = false) :
    selection.namesFile (Place.path place) = false := by
  rw [namesFile, List.any_eq_false]
  intro wanted listed same
  obtain ⟨place', leads, stands⟩ := directories wanted listed
  -- The path of a selected directory is that of no other place.
  rw [leads.written] at same
  obtain rfl := Place.eq_of_same leads.valid valid same
  rw [← leads.written, FileTree.isDirectory_iff.mpr (leads.find.mpr stands)] at noDirectory
  cases noDirectory

/-! ### Selections of the command line -/

theorem of_ofPaths {paths : List Path} {filter : Option String} {whole : Selection}
    (chosen : ofPaths tree paths filter = .ok selection)
    (unrestricted : ofPaths tree [] filter = .ok whole) :
    selection.paths = paths.map tree.key ∧ whole = selection.whole := by
  unfold ofPaths at chosen unrestricted
  cases filter with
  | none =>
    cases chosen
    cases unrestricted
    exact ⟨rfl, rfl⟩
  | some text =>
    dsimp only at chosen unrestricted
    split at chosen
    next pattern parsed =>
      rw [parsed] at unrestricted
      cases chosen
      cases unrestricted
      exact ⟨rfl, rfl⟩
    next => cases chosen

theorem ofDirectories_ofPaths (plain : tree.Plain) {paths : List Path}
    (chosen : selection.paths = paths.map tree.key)
    (existing : ∀ path ∈ paths,
      tree.isDirectory path = true ∧ tree.isDirectory (tree.key path) = true) :
    selection.ofDirectories tree := by
  rw [ofDirectories, chosen]
  intro wanted listed
  obtain ⟨path, member, rfl⟩ := List.mem_map.mp listed
  obtain ⟨isDirectory, again⟩ := existing path member
  rw [FileTree.isDirectory_iff] at isDirectory again
  exact FileTree.Leads.of_key plain isDirectory again

end SuiteRunner.Discovery.Selection
