import SuiteRunner.Proofs.Files.Place

/-!
# Trees without links

In a tree without links a path leads to the place that its names say, so the path of a
place has no other identity than itself.
-/

namespace SuiteRunner.Files.FileTree

/-- Everything in the tree has a name. -/
def Named (tree : FileTree) : Prop := ∀ standing ∈ tree.entries, IsPlace standing.1

instance (tree : FileTree) : Decidable tree.Named :=
  inferInstanceAs (Decidable (∀ standing ∈ tree.entries, IsPlace standing.1))

/-- A walk takes its steps one by one, up to the first link. -/
theorem exists_walk_eq (tree : FileTree) (mode : Mode) :
    ∃ follow, tree.walk mode linkLimit = tree.walkOn mode follow :=
  ⟨_, rfl⟩

/-- The path of a place leads wherever going down by its names does. -/
theorem locate_path_of_down {tree : FileTree} {place found : Place} (valid : IsPlace place)
    {mode : Mode}
    (lands : ∀ follow found, tree.walkOn mode follow [] (place.map .down) = .ok found →
      found = place)
    (located : tree.locate (Place.path place) mode = .ok found) : found = place := by
  unfold locate at located
  split at located
  next => cases located
  next =>
    split at located
    next => cases located
    next =>
      split at located
      next => cases located
      next =>
        obtain ⟨follow, same⟩ := tree.exists_walk_eq mode
        rw [if_pos (Place.isAbsolute_path place), same, Place.stepsOf_path valid] at located
        split at located
        next empty =>
          cases located
          exact empty.symm
        next => exact lands follow found located

/-- There are no links, and everything has a name. -/
structure Plain (tree : FileTree) : Prop where
  noLink : ∀ place target, (place, Entry.link target) ∉ tree.entries
  valid : ∀ place entry, (place, entry) ∈ tree.entries → IsPlace place

/-- Whether an entry is a symbolic link. -/
def isLink : Entry → Bool
  | .link _ => true
  | _ => false

theorem plain_iff {tree : FileTree} :
    tree.Plain ↔ ∀ standing ∈ tree.entries, isLink standing.2 = false ∧ IsPlace standing.1 := by
  constructor
  · rintro plain ⟨place, entry⟩ member
    refine ⟨?_, plain.valid place entry member⟩
    cases entry with
    | link target => exact absurd member (plain.noLink place target)
    | _ => rfl
  · intro all
    refine ⟨fun place target member => ?_, fun place entry member => (all _ member).2⟩
    cases (all _ member).1

instance (tree : FileTree) : Decidable tree.Plain := decidable_of_iff _ plain_iff.symm

namespace Plain

variable {tree : FileTree} {place : Place}

theorem named (plain : tree.Plain) : tree.Named := fun standing => plain.valid standing.1 standing.2

theorem mem_entries {entry : Entry} (nonempty : place ≠ [])
    (found : tree.entry? place = some entry) : (place, entry) ∈ tree.entries := by
  rw [FileTree.entry?, if_neg (by simpa using nonempty)] at found
  obtain ⟨before, after, split, -⟩ := List.lookup_eq_some_iff.mp found
  rw [split]
  exact List.mem_append_right _ List.mem_cons_self

theorem isPlace_of_stands (plain : tree.Plain) {entry : Entry}
    (found : tree.entry? place = some entry) : IsPlace place := by
  by_cases empty : place = []
  · rw [empty]
    exact fun _ member => absurd member List.not_mem_nil
  · exact plain.valid place entry (mem_entries empty found)

theorem entry?_ne_link (plain : tree.Plain) {target : String} :
    tree.entry? place ≠ some (.link target) := by
  intro found
  have nonempty : place ≠ [] := by
    rintro rfl
    simp [FileTree.entry?] at found
  exact plain.noLink place target (mem_entries nonempty found)

/-! ### Walking -/

theorem walkOn_down (plain : tree.Plain) {mode : Mode}
    {follow : String → Place → List Step → Except Failure Place} {here : Place}
    {names : List String} (walked : tree.walkOn mode follow here (names.map .down) = .ok place) :
    place = here ++ names := by
  induction names generalizing here with
  | nil =>
    cases walked
    exact (List.append_nil _).symm
  | cons name names ih =>
    -- Files and missing entries end a walk, so no name may be left behind them.
    have single (last : names = []) : here ++ [name] = here ++ name :: names := by rw [last]
    simp only [List.map_cons, walkOn] at walked
    split at walked
    next => cases walked
    next =>
      split at walked
      next missing =>
        split at walked
        next last =>
          cases walked
          exact single (by cases names <;> simp at last ⊢)
        next => cases walked
      next => rw [ih walked, List.append_assoc, List.singleton_append]
      next =>
        split at walked
        next last => cases walked; exact single (by simpa using last)
        next => cases walked
      next =>
        split at walked
        next last => cases walked; exact single (by simpa using last)
        next => cases walked
      next target found => exact absurd found plain.entry?_ne_link

/-- The path of a place leads to that place, if it leads anywhere. -/
theorem locate_path (plain : tree.Plain) (valid : IsPlace place) {mode : Mode} {found : Place}
    (located : tree.locate (Place.path place) mode = .ok found) : found = place :=
  locate_path_of_down valid (fun _ _ => plain.walkOn_down) located

end Plain

/-! ### Looking -/

theorem isFile_iff {tree : FileTree} {path : Path} :
    tree.isFile path = true ↔
      ∃ content executable, tree.find path = .ok (.file content executable) := by
  unfold isFile
  split
  next content executable found => exact ⟨fun _ => ⟨content, executable, found⟩, fun _ => rfl⟩
  next other =>
    constructor
    · intro impossible
      cases impossible
    · rintro ⟨content, executable, found⟩
      exact absurd found (other content executable)

theorem isDirectory_iff {tree : FileTree} {path : Path} :
    tree.isDirectory path = true ↔ tree.find path = .ok .directory := by
  unfold isDirectory
  split
  next found => simp [found]
  next other => exact ⟨fun impossible => (by cases impossible), fun found => absurd found other⟩

theorem find_eq_ok_iff {tree : FileTree} {path : Path} {entry : Entry} :
    tree.find path = .ok entry ↔
      ∃ place, tree.locate path {} = .ok place ∧ tree.entry? place = some entry := by
  unfold find
  cases tree.locate path {} with
  | error failure => simp
  | ok place => cases stands : tree.entry? place <;> simp [stands]

theorem exists_find_of_read {tree : FileTree} {path : Path} {content : ByteArray}
    (read : tree.read path = .ok content) : ∃ entry, tree.find path = .ok entry := by
  unfold FileTree.read at read
  cases found : tree.find path with
  | error failure => simp [found] at read
  | ok entry => exact ⟨entry, rfl⟩

theorem exists_find_of_names {tree : FileTree} {path : Path} {names : List String}
    (listed : tree.names path = .ok names) : ∃ entry, tree.find path = .ok entry := by
  unfold FileTree.names at listed
  split at listed
  next => cases listed
  next place located =>
    split at listed
    next stands => exact ⟨_, find_eq_ok_iff.mpr ⟨place, located, stands⟩⟩
    next => cases listed
    next => cases listed

/-! ### Canonical paths -/

/-- A path that is the path of the place it leads to. -/
structure Leads (tree : FileTree) (path : Path) (place : Place) : Prop where
  written : path = Place.path place
  valid : IsPlace place
  located : tree.locate path {} = .ok place

namespace Leads

variable {tree : FileTree} {path other : Path} {place place' : Place} {name : String}

theorem key (leads : tree.Leads path place) : tree.key path = path := by
  simp only [FileTree.key, canonical?, leads.located, Option.getD_some]
  exact leads.written.symm

theorem find (leads : tree.Leads path place) {entry : Entry} :
    tree.find path = .ok entry ↔ tree.entry? place = some entry := by
  rw [find_eq_ok_iff]
  constructor
  · rintro ⟨found, located, stands⟩
    cases leads.located.symm.trans located
    exact stands
  · intro stands
    exact ⟨place, leads.located, stands⟩

theorem eq_of_same (leads : tree.Leads path place) (leads' : tree.Leads other place')
    (same : path.same other = true) : path = other := by
  rw [leads.written, leads'.written] at same ⊢
  rw [Place.eq_of_same leads.valid leads'.valid same]

theorem of_find (plain : tree.Plain) (valid : IsPlace place) {entry : Entry}
    (found : tree.find (Place.path place) = .ok entry) :
    tree.Leads (Place.path place) place ∧ tree.entry? place = some entry := by
  obtain ⟨place', located, stands⟩ := find_eq_ok_iff.mp found
  obtain rfl := plain.locate_path valid located
  exact ⟨⟨rfl, valid, located⟩, stands⟩

/-- The identity of a path that leads somewhere is canonical, if it can be followed itself. -/
theorem of_key (plain : tree.Plain) {entry entry' : Entry} (found : tree.find path = .ok entry)
    (again : tree.find (tree.key path) = .ok entry') :
    ∃ place, tree.Leads (tree.key path) place ∧ tree.entry? place = some entry := by
  obtain ⟨place, located, stands⟩ := find_eq_ok_iff.mp found
  have same : tree.key path = Place.path place := by
    simp only [FileTree.key, canonical?, located, Option.getD_some]
  rw [same] at again ⊢
  exact ⟨place, (of_find plain (plain.isPlace_of_stands stands) again).1, stands⟩

/-- Going down by a name from a canonical path. -/
theorem child (plain : tree.Plain) (leads : tree.Leads path place) (named : IsName name)
    {entry : Entry} (found : tree.find (path.child name) = .ok entry) :
    tree.Leads (path.child name) (place ++ [name]) ∧
      tree.entry? (place ++ [name]) = some entry := by
  have written : path.child name = Place.path (place ++ [name]) := by
    rw [leads.written, Place.child_path leads.valid named]
  rw [written] at found ⊢
  exact of_find plain (isPlace_append leads.valid named) found

theorem parent?_child (leads : tree.Leads path place) (named : IsName name) :
    (path.child name).parent? = some path := by
  rw [leads.written, Place.child_path leads.valid named, Place.parent?_path leads.valid named]

end Leads

/-! ### Listing -/

theorem nameBelow?_eq_some {place other : Place} {name : String}
    (below : nameBelow? place other = some name) : other = place ++ [name] := by
  induction place generalizing other with
  | nil =>
    cases other with
    | nil => simp [nameBelow?] at below
    | cons first rest =>
      cases rest with
      | nil => simpa [nameBelow?] using below
      | cons => simp [nameBelow?] at below
  | cons first place ih =>
    cases other with
    | nil => simp [nameBelow?] at below
    | cons head rest =>
      rw [nameBelow?] at below
      split at below
      next same => rw [ih below, same]; rfl
      next => cases below

theorem Named.isName_of_mem_names {tree : FileTree} (valid : tree.Named) {path : Path}
    {names : List String} (listed : tree.names path = .ok names) :
    ∀ name ∈ names, IsName name := by
  unfold FileTree.names at listed
  split at listed
  next => cases listed
  next place _ =>
    split at listed
    next =>
      cases listed
      intro name member
      obtain ⟨⟨other, entry⟩, stands, below⟩ := List.mem_filterMap.mp member
      rw [nameBelow?_eq_some below] at stands
      exact valid _ stands name (List.mem_append_right _ List.mem_cons_self)
    next => cases listed
    next => cases listed

end SuiteRunner.Files.FileTree
