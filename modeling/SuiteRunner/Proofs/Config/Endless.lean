import Mathlib.Data.Finset.Card
import Mathlib.Data.Finset.Option
import SuiteRunner.Proofs.Config.Lineage

/-!
# Loading that never ends

Loading goes on for as long as it looks for the next layer by a path that is not known, and reads
it. What it reads behind the entry is a file, or it is looked for under the components of the entry,
and of such paths it reads no more than one that leads nowhere. There are only so many files, so
sooner or later one of them is read for the second time, and behind it everything comes as it came
before. So what has gone on for about twice as many steps as there are files goes on for ever, and
no other loading takes so long.
-/

namespace SuiteRunner.Config

open Files

variable {tree : FileTree} {entry path : Path} {layer : Layer} {steps : Nat}

/-! ### Failures -/

theorem loadLayer_ne_endless (tree : FileTree) (path scope : Path) :
    loadLayer tree path ≠ .error (.endless scope) := by
  intro failed
  unfold loadLayer Layer.parse at failed
  dsimp only at failed
  split at failed
  next => cases failed
  next =>
    split at failed
    next => cases failed
    next => split at failed <;> cases failed

theorem LoadsTo.ne_endless {cascade after : Cascade} {fault : Option Error}
    (loads : LoadsTo tree entry path cascade after fault) (scope : Path) :
    fault ≠ some (.endless scope) := by
  induction loads with
  | known | last => exact nofun
  | @failed path _ _ _ failed =>
    rintro ⟨⟩
    exact loadLayer_ne_endless tree path scope failed
  | further _ _ _ _ ih => exact ih

namespace Cascade

variable {cascade current after : Cascade} {fault : Option Error}

/-! ### Steps -/

/-- The layer after so many steps is read, and the path by which it is looked for is not known:
neither to the cascade nor as the scope of a layer that has been read before. -/
def GoesOn (cascade : Cascade) (tree : FileTree) (entry : Path) (steps : Nat) : Prop :=
  ∃ path layer, link? tree entry steps = some path ∧ loadLayer tree path = .ok layer ∧
    cascade.contains path = false ∧
    ∀ earlier < steps, ∀ met, lineage? tree entry earlier = some met → met.scope.same path = false

/-- The parents of a layer file are looked for and read without an end. -/
def Endless (cascade : Cascade) (tree : FileTree) (entry : Path) : Prop :=
  ∀ steps, cascade.GoesOn tree entry steps

/-! ### What has been read -/

/-- This is the cascade with all layers that have been read in so many steps. -/
def HasRead (cascade : Cascade) (tree : FileTree) (entry : Path) (steps : Nat)
    (current : Cascade) : Prop :=
  ∀ path, current.contains path = true ↔ cascade.contains path = true ∨
    ∃ earlier < steps, ∃ met, lineage? tree entry earlier = some met ∧ met.scope.same path = true

theorem hasRead_start (cascade : Cascade) (tree : FileTree) (entry : Path) :
    cascade.HasRead tree entry 0 cascade := by
  simp [HasRead]

namespace HasRead

theorem insert (read : cascade.HasRead tree entry steps current)
    (come : lineage? tree entry steps = some layer) :
    cascade.HasRead tree entry (steps + 1) (current.insert layer) := by
  intro path
  rw [contains_insert, Bool.or_eq_true, read path]
  constructor
  · rintro (same | known | ⟨earlier, before, met, come', same⟩)
    · exact .inr ⟨steps, Nat.lt_succ_self steps, layer, come, same⟩
    · exact .inl known
    · exact .inr ⟨earlier, Nat.lt_succ_of_lt before, met, come', same⟩
  · rintro (known | ⟨earlier, before, met, come', same⟩)
    · exact .inr (.inl known)
    · rcases Nat.lt_succ_iff_lt_or_eq.mp before with before | rfl
      · exact .inr (.inr ⟨earlier, before, met, come', same⟩)
      · cases come.symm.trans come'
        exact .inl same

theorem goesOn_iff (read : cascade.HasRead tree entry steps current)
    (link : link? tree entry steps = some path) :
    cascade.GoesOn tree entry steps ↔
      current.contains path = false ∧ ∃ layer, loadLayer tree path = .ok layer := by
  have absent_iff := (read path).not
  simp only [Bool.not_eq_true, not_or, not_exists, not_and] at absent_iff
  rw [absent_iff]
  constructor
  · rintro ⟨path', layer, link', loaded, absent, fresh⟩
    cases link.symm.trans link'
    exact ⟨⟨absent, fresh⟩, layer, loaded⟩
  · rintro ⟨⟨absent, fresh⟩, layer, loaded⟩
    exact ⟨path, layer, link, loaded, absent, fresh⟩

/-! ### Loading, step by step -/

/-- Loading with a bound on its steps comes to its end, or it goes on at all of them. -/
theorem loadsTo_or_goesOn {fuel : Nat} (read : cascade.HasRead tree entry steps current)
    (link : link? tree entry steps = some path)
    (answers : loadFrom tree (tree.key entry) path fuel current = (after, fault)) :
    LoadsTo tree entry path current after fault ∨
      (∃ scope, fault = some (.endless scope)) ∧
        ∀ more < fuel, cascade.GoesOn tree entry (steps + more) := by
  induction fuel generalizing steps current path with
  | zero =>
    cases answers
    exact .inr ⟨⟨path, rfl⟩, fun more before => absurd before (Nat.not_lt_zero _)⟩
  | succ fuel ih =>
    rw [loadFrom_succ] at answers
    split at answers
    next known =>
      cases answers
      exact .inl (.known known)
    next fresh =>
      have absent : current.contains path = false := Bool.not_eq_true _ ▸ fresh
      split at answers
      next failed =>
        cases answers
        exact .inl (.failed absent failed)
      next layer loaded =>
        have come := lineage?_of_ok link loaded
        split at answers
        next top =>
          cases answers
          exact .inl (.last absent loaded (next?_eq_none (by simp [top])))
        next parent named =>
          split at answers
          next followed =>
            have next := next?_eq_some_iff.mpr ⟨named, followed⟩
            rcases ih (read.insert come) ((link?_succ come).trans next) answers with
              others | ⟨endless, further⟩
            · exact .inl (.further absent loaded next others)
            · refine .inr ⟨endless, fun more before => ?_⟩
              cases more with
              | zero => exact (read.goesOn_iff link).mpr ⟨absent, layer, loaded⟩
              | succ more =>
                rw [Nat.add_comm more, ← Nat.add_assoc]
                exact further more (Nat.lt_of_succ_lt_succ before)
          next notFollowed =>
            cases answers
            exact .inl (.last absent loaded (next?_eq_none (by simp [named, notFollowed])))

/-- A loading that does not go on at some step ends there at the latest. -/
theorem exists_loadsTo (read : cascade.HasRead tree entry steps current)
    (link : link? tree entry steps = some path) {more : Nat}
    (stops : ¬ cascade.GoesOn tree entry (steps + more)) :
    ∃ after fault, LoadsTo tree entry path current after fault := by
  cases answers : loadFrom tree (tree.key entry) path (more + 1) current with
  | mk after fault =>
    rcases read.loadsTo_or_goesOn link answers with loads | ⟨-, going⟩
    · exact ⟨after, fault, loads⟩
    · exact absurd (going more (Nat.lt_succ_self more)) stops

theorem not_loadsTo (read : cascade.HasRead tree entry steps current)
    (link : link? tree entry steps = some path) (endless : cascade.Endless tree entry) :
    ¬ LoadsTo tree entry path current after fault := by
  intro loads
  -- By induction on the loading. Wherever it could end it goes on.
  induction loads generalizing steps with
  | known known =>
    obtain ⟨absent, -⟩ := (read.goesOn_iff link).mp (endless steps)
    cases known.symm.trans absent
  | failed _ failed =>
    obtain ⟨-, layer, loaded⟩ := (read.goesOn_iff link).mp (endless steps)
    cases failed.symm.trans loaded
  | last _ loaded ended =>
    obtain ⟨path, layer, link', -⟩ := endless (steps + 1)
    rw [link?_succ (lineage?_of_ok link loaded), ended] at link'
    cases link'
  | further _ loaded named _ ih =>
    have come := lineage?_of_ok link loaded
    exact ih (read.insert come) ((link?_succ come).trans named)

end HasRead

/-- Loading does not end if and only if it goes on at every step. -/
theorem endless_iff : cascade.Endless tree entry ↔
    ∀ after fault, ¬ LoadsTo tree entry (tree.key entry) cascade after fault := by
  have read := hasRead_start cascade tree entry
  constructor
  · exact fun endless after fault => read.not_loadsTo rfl endless
  · intro never steps
    by_contra stops
    obtain ⟨after, fault, loads⟩ := read.exists_loadsTo rfl (by rwa [Nat.zero_add])
    exact never after fault loads

/-! ### Files that are read again -/

/-- A file is listed in the tree, by its identity. -/
theorem exists_mem_of_isFile (isFile : tree.isFile path = true) :
    ∃ place content executable, (place, .file content executable) ∈ tree.entries ∧
      tree.canonical? path = some (Place.path place) := by
  obtain ⟨content, executable, found⟩ := FileTree.isFile_iff.mp isFile
  obtain ⟨place, located, stands⟩ := FileTree.find_eq_ok_iff.mp found
  have nonempty : place ≠ [] := by
    rintro rfl
    cases stands
  exact ⟨place, content, executable, FileTree.Plain.mem_entries nonempty stands,
    FileTree.canonical?_eq_some_iff.mpr ⟨place, located, rfl⟩⟩

/-- What is read by a path that is spelled like the entry is listed as well, if that path leads
anywhere. -/
theorem exists_mem_of_same {canonical : Path} (same : (tree.key entry).same path = true)
    (found : tree.canonical? path = some canonical) (loaded : loadLayer tree path = .ok layer) :
    ∃ place standing, (place, standing) ∈ tree.entries ∧ canonical = Place.path place := by
  obtain ⟨place, located, rfl⟩ := FileTree.canonical?_eq_some_iff.mp found
  have spoken : path.text ≠ "" := (FileTree.walk_of_locate located).1
  have isAbsolute : path.isAbsolute = true := by
    rw [← Path.isAbsolute_eq_of_same same]
    exact FileTree.isAbsolute_key
      (Path.spoken_of_same ((Path.same_comm _ _).trans same) spoken)
  obtain ⟨standing, stands, -⟩ := (FileTree.stands_of_locate isAbsolute located).here
  refine ⟨place, standing, FileTree.Plain.mem_entries ?_ stands, rfl⟩
  -- The root is a directory, and those are not read.
  rintro rfl
  obtain ⟨-, content, read⟩ := read_of_loadLayer loaded
  rw [FileTree.key_of_canonical? found] at read
  cases read

/-- Whatever leads nowhere and is looked for all the same is spelled like the entry. -/
theorem same_of_nowhere (link : link? tree entry (steps + 1) = some path)
    (nowhere : tree.canonical? path = none) : (tree.key entry).same path = true := by
  obtain ⟨-, -, -, followed⟩ := exists_parent link
  rcases (Bool.or_eq_true _ _).mp followed with same | isFile
  · exact same
  · obtain ⟨_, _, _, -, found⟩ := exists_mem_of_isFile isFile
    cases nowhere.symm.trans found

/-- What is looked for and read behind the entry is listed in the tree, or it leads nowhere. -/
theorem GoesOn.exists_place? (going : cascade.GoesOn tree entry (steps + 1)) :
    ∃ (path : Path) (place? : Option Place), link? tree entry (steps + 1) = some path ∧
      tree.canonical? path = place?.map Place.path ∧
      ∀ place ∈ place?, place ∈ tree.entries.map Prod.fst := by
  obtain ⟨path, layer, link, loaded, -⟩ := going
  cases leads : tree.canonical? path with
  | none => exact ⟨path, none, link, leads, nofun⟩
  | some canonical =>
    obtain ⟨-, -, -, followed⟩ := exists_parent link
    obtain ⟨place, standing, member, rfl⟩ : ∃ place standing,
        (place, standing) ∈ tree.entries ∧ canonical = Place.path place := by
      rcases (Bool.or_eq_true _ _).mp followed with same | isFile
      · exact exists_mem_of_same same leads loaded
      · obtain ⟨place, content, executable, member, found⟩ := exists_mem_of_isFile isFile
        exact ⟨place, _, member, Option.some.inj (leads.symm.trans found)⟩
    refine ⟨path, some place, link, leads, ?_⟩
    rintro _ ⟨⟩
    exact List.mem_map_of_mem member

/-- Only once is a layer read by a path that leads nowhere, since it is stored under a path that is
spelled like this one. -/
theorem GoesOn.leads {later : Nat} {other : Path} (going : cascade.GoesOn tree entry (later + 1))
    (before : steps < later) (read : cascade.GoesOn tree entry (steps + 1))
    (link : link? tree entry (steps + 1) = some path) (nowhere : tree.canonical? path = none)
    (link' : link? tree entry (later + 1) = some other) : tree.canonical? other ≠ none := by
  intro nowhere'
  obtain ⟨_, layer, here, loaded, -⟩ := read
  cases link.symm.trans here
  obtain ⟨_, -, there, -, -, fresh⟩ := going
  cases link'.symm.trans there
  have same := same_of_nowhere link nowhere
  have same' := same_of_nowhere link' nowhere'
  have stored := FileTree.same_key_of_nowhere same nowhere
  rw [← (read_of_loadLayer loaded).1] at stored
  have apart := fresh (steps + 1) (Nat.succ_lt_succ before) layer (lineage?_of_ok link loaded)
  rw [Path.same_iff] at same same' stored
  rw [Path.same_iff.mpr (stored.trans (same.symm.trans same'))] at apart
  cases apart

/-- Of more layers than there are entries in the tree one has come twice. -/
theorem exists_repeat
    (going : ∀ steps < tree.entries.length + 3, cascade.GoesOn tree entry steps) :
    ∃ earlier later, earlier < later ∧ later < tree.entries.length + 3 ∧
      lineage? tree entry earlier = lineage? tree entry later := by
  have behind : ∀ steps < tree.entries.length + 2, cascade.GoesOn tree entry (steps + 1) :=
    fun steps within => going (steps + 1) (Nat.succ_lt_succ within)
  have listed := fun steps within => (behind steps within).exists_place?
  choose! paths places links canonical members using listed
  let listed := Finset.insertNone (tree.entries.map Prod.fst).toFinset
  have fewer : listed.card < (Finset.range (tree.entries.length + 2)).card := by
    have most := List.toFinset_card_le (tree.entries.map Prod.fst)
    rw [List.length_map] at most
    rw [Finset.card_range, Finset.card_insertNone]
    omega
  obtain ⟨i, before, j, before', different, same⟩ :=
    Finset.exists_ne_map_eq_of_card_lt_of_maps_to fewer fun steps within =>
      Finset.mem_insertNone.mpr fun place named =>
        List.mem_toFinset.mpr (members steps (Finset.mem_range.mp within) place named)
  wlog less : i < j generalizing i j
  · exact this j before' i before different.symm same.symm (by omega)
  rw [Finset.mem_range] at before before'
  refine ⟨i + 1, j + 1, by omega, by omega, ?_⟩
  have first := canonical i before
  have second := canonical j before'
  rw [← same] at second
  cases place : places i with
  | none =>
    -- Both would lead nowhere.
    rw [place] at first second
    exact absurd second
      ((behind j before').leads less (behind i before) (links i before) first (links j before'))
  | some place' =>
    rw [place] at first second
    rw [lineage?_of_link? (links i before), lineage?_of_link? (links j before'),
      loadLayer_congr ((FileTree.key_of_canonical? first).trans
        (FileTree.key_of_canonical? second).symm)]

/-- What goes on for as many steps as loading may take goes on for ever. -/
theorem endless_of_goesOn (going : ∀ steps < loadLimit tree, cascade.GoesOn tree entry steps) :
    cascade.Endless tree entry := by
  obtain ⟨earlier, later, before, within, same⟩ :=
    exists_repeat fun steps within => going steps (by unfold loadLimit; omega)
  obtain ⟨period, rfl⟩ := Nat.exists_eq_add_of_lt before
  -- Behind the layer that comes for the second time everything comes one period later.
  have periodic : ∀ steps, earlier ≤ steps →
      lineage? tree entry (steps + (period + 1)) = lineage? tree entry steps := by
    intro steps behind
    obtain ⟨more, rfl⟩ := Nat.exists_eq_add_of_le behind
    have shifted := lineage?_add same more
    rw [shifted]
    congr 1
    omega
  intro steps
  induction steps using Nat.strongRecOn with
  | _ steps ih =>
    by_cases few : steps < loadLimit tree
    · exact going steps few
    · unfold loadLimit at few
      obtain ⟨base, rfl⟩ : ∃ base, steps = base + 1 + (period + 1) :=
        ⟨steps - (period + 2), by omega⟩
      obtain ⟨path, layer, link, loaded, absent, fresh⟩ := ih (base + 1) (by omega)
      refine ⟨path, layer, ?_, loaded, absent, fun other behind met come => ?_⟩
      · rw [Nat.add_right_comm, link?, periodic base (by omega), ← link?]
        exact link
      · by_cases known : other < base + 1
        · exact fresh other known met come
        -- It came one period before as well.
        · obtain ⟨more, rfl⟩ : ∃ more, other = more + (period + 1) :=
            ⟨other - (period + 1), by omega⟩
          rw [periodic more (by omega)] at come
          exact fresh more (by omega) met come

/-! ### Whole loads -/

/-- Loading is told to be endless if and only if it comes to no end. -/
theorem load_endless_iff :
    (∃ after scope, cascade.load tree path = (after, .error (.endless scope))) ↔
      ∀ after fault, ¬ LoadsTo tree path (tree.key path) cascade after fault := by
  have read := hasRead_start cascade tree path
  unfold load
  dsimp only
  cases answers : loadFrom tree (tree.key path) (tree.key path) (loadLimit tree) cascade with
  | mk after fault =>
    rcases read.loadsTo_or_goesOn rfl answers with loads | ⟨⟨scope, rfl⟩, going⟩
    · refine iff_of_false ?_ fun never => never after fault loads
      rintro ⟨_, scope, told⟩
      cases fault with
      | none => cases told
      | some fault =>
        cases told
        exact loads.ne_endless scope rfl
    · simp only [Nat.zero_add] at going
      exact iff_of_true ⟨after, scope, rfl⟩ (endless_iff.mp (endless_of_goesOn going))

/-- A file that is its own parent, by a path under which it is not stored, is read up to any
bound. -/
theorem loadFrom_of_turns {start : Path} (loaded : loadLayer tree path = .ok layer)
    (named : layer.parent = some path) (followed : isFollowed tree start path = true)
    (elsewhere : layer.scope.same path = false) (absent : cascade.contains path = false)
    (fuel : Nat) : (loadFrom tree start path fuel cascade).2 = some (.endless path) := by
  induction fuel generalizing cascade with
  | zero => rfl
  | succ fuel ih =>
    have absent' : (cascade.insert layer).contains path = false := by
      rw [contains_insert, elsewhere, absent, Bool.or_false]
    simp only [loadFrom_succ, absent, loaded, named, followed, Bool.false_eq_true, if_false,
      if_true]
    exact ih absent'

/-- A layer that names itself as its parent, by such a path, is loaded without an end. -/
theorem load_of_turns (loaded : loadLayer tree (tree.key entry) = .ok layer)
    (named : layer.parent = some path) (same : tree.key path = tree.key (tree.key entry))
    (isFile : tree.isFile path = true) (elsewhere : layer.scope.same path = false)
    (absent : cascade.contains (tree.key entry) = false)
    (unknown : cascade.contains path = false) :
    ∃ after, cascade.load tree entry = (after, .error (.endless path)) := by
  have again := (loadLayer_congr same).trans loaded
  have followed := isFollowed_of_isFile isFile (tree.key entry)
  have absent' : (cascade.insert layer).contains path = false := by
    rw [contains_insert, elsewhere, unknown, Bool.or_false]
  obtain ⟨fuel, limit⟩ := Nat.exists_eq_add_one.mpr (Nat.zero_lt_of_lt (cascade.unloaded_lt tree))
  have turns := loadFrom_of_turns again named followed elsewhere absent' fuel
  cases answers : loadFrom tree (tree.key entry) path fuel (cascade.insert layer) with
  | mk after fault =>
    rw [answers] at turns
    cases turns
    refine ⟨after, ?_⟩
    unfold load
    simp only [limit, loadFrom_succ, absent, loaded, named, followed, answers, Bool.false_eq_true,
      if_false, if_true]

/-- Loading never ends only if some file is not found again. -/
theorem Endless.not_findsAgain (endless : cascade.Endless tree entry) :
    ¬ FindsAgain tree entry := by
  intro again
  obtain ⟨earlier, later, before, -, same⟩ := exists_repeat fun steps _ => endless steps
  obtain ⟨path, layer, link, loaded, -, fresh⟩ := endless later
  have come := lineage?_of_ok link loaded
  have stored := again.same link come
  cases stored.symm.trans (fresh earlier before layer (same.trans come))

end Cascade

/-- A suite that is its own parent, with a `/.` behind it. -/
def dottedCycle : FileTree where
  entries :=
    [ (["d"], .directory),
      (["litmus.toml"], .file "parent = \"d/../litmus.toml/.\"\n".toUTF8 false) ]

theorem dottedCycle_never_ends :
    dottedCycle.Idempotent ∧ ∀ after fault,
      ¬ LoadsTo dottedCycle ⟨"/litmus.toml"⟩ (dottedCycle.key ⟨"/litmus.toml"⟩) {} after fault := by
  have idempotent : dottedCycle.Idempotent :=
    FileTree.idempotent_of_entries (FileTree.Inside.root _) (by decide +kernel)
  have reads : (loadLayer dottedCycle (dottedCycle.key ⟨"/litmus.toml"⟩)).toOption.map
      (fun layer => (layer.scope, layer.parent)) =
        some (⟨"/litmus.toml"⟩, some ⟨"/d/../litmus.toml"⟩) := by decide +kernel
  obtain ⟨layer, loaded, read⟩ := exists_eq_ok reads
  obtain ⟨scope, parent⟩ := Prod.mk.inj read
  have elsewhere : layer.scope.same ⟨"/d/../litmus.toml"⟩ = false := by
    rw [scope]
    decide +kernel
  have stalls : ∃ after, ({} : Cascade).load dottedCycle ⟨"/litmus.toml"⟩ =
      (after, .error (.endless ⟨"/d/../litmus.toml"⟩)) :=
    Cascade.load_of_turns loaded parent (by decide +kernel) (by decide +kernel) elsewhere rfl rfl
  obtain ⟨after, endless⟩ := stalls
  exact ⟨idempotent, Cascade.load_endless_iff.mp ⟨after, _, endless⟩⟩

theorem next?_congr {other : Path} (same : tree.key path = tree.key other) :
    next? tree path = next? tree other := by
  unfold next?
  rw [same]

theorem lineage?_congr {other : Path} (same : tree.key path = tree.key other) (steps : Nat) :
    lineage? tree path steps = lineage? tree other steps := by
  induction steps with
  | zero => rw [lineage?, lineage?, same]
  | succ steps ih => rw [lineage?, lineage?, ih, next?_congr same]

theorem FindsAgain.congr {other : Path} (same : tree.key path = tree.key other)
    (again : FindsAgain tree path) : FindsAgain tree other := by
  intro steps found link
  cases steps with
  | zero => exact again 0 found ((congrArg some same).trans link)
  | succ steps =>
    refine again (steps + 1) found ?_
    rw [link?, lineage?_congr same, next?_congr same]
    exact link

/-- From every file all files are found again, if they are from every file that is listed. -/
theorem findsAgain_of_entries (idempotent : tree.Idempotent)
    (again : ∀ place content executable, (place, .file content executable) ∈ tree.entries →
      FindsAgain tree (Place.path place))
    (isFile : tree.isFile path = true) : FindsAgain tree path := by
  obtain ⟨place, content, executable, member, canonical⟩ := Cascade.exists_mem_of_isFile isFile
  refine .congr ?_ (again place content executable member)
  rw [FileTree.key_of_canonical? canonical,
    FileTree.key_of_canonical? (idempotent path _ canonical)]

end SuiteRunner.Config
