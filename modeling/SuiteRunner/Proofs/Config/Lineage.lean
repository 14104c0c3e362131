import SuiteRunner.Proofs.Config.Ancestors
import SuiteRunner.Proofs.Config.Loading
import SuiteRunner.Proofs.Files.Spelling

/-!
# Loading a layer with all its parents

Loading follows the parents from file to file and reads each under its identity; the chain of a
scope follows them from scope to scope. The two agree if and only if every file that is come to has
the identity by which it is looked for. A canonical path has it. But the identity of a path that
leads nowhere is only its absolute form, and where that drops a `/.` from behind the name of a
file, it leads to the file after all, which has another identity if there is a `..` in front.
-/

namespace SuiteRunner

open Files

namespace Config

variable {tree : FileTree} {entry path parent : Path} {layer : Layer} {steps : Nat}

/-- What is read as a layer is listed in the tree, by its identity. -/
theorem exists_mem_of_loadLayer (loaded : loadLayer tree path = .ok layer)
    (canonical : tree.canonical? (tree.key path) = some (tree.key path)) :
    ∃ place standing, (place, standing) ∈ tree.entries ∧ layer.scope = Place.path place := by
  obtain ⟨scope, content, read⟩ := read_of_loadLayer loaded
  obtain ⟨place, located, written⟩ := FileTree.canonical?_eq_some_iff.mp canonical
  obtain ⟨standing, found⟩ := FileTree.exists_find_of_read read
  obtain ⟨place', located', stands⟩ := FileTree.find_eq_ok_iff.mp found
  cases located.symm.trans located'
  have nonempty : place ≠ [] := by
    rintro rfl
    have directory : standing = .directory := (Option.some.inj stands).symm
    rw [FileTree.read, found, directory] at read
    cases read
  exact ⟨place, standing, FileTree.Plain.mem_entries nonempty stands, scope.trans written⟩

/-! ### The files that are come to -/

/-- The parent with which loading goes on behind a layer. -/
def next? (tree : FileTree) (entry : Path) (layer : Layer) : Option Path :=
  layer.parent.filter (isFollowed tree (tree.key entry))

/-- The layer that is come to after so many steps from a layer to its parent. -/
def lineage? (tree : FileTree) (entry : Path) : (steps : Nat) → Option Layer
  | 0 => (loadLayer tree (tree.key entry)).toOption
  | steps + 1 => (lineage? tree entry steps).bind fun layer =>
      (next? tree entry layer).bind fun parent => (loadLayer tree parent).toOption

/-- The path by which it is looked for. -/
def link? (tree : FileTree) (entry : Path) : (steps : Nat) → Option Path
  | 0 => some (tree.key entry)
  | steps + 1 => (lineage? tree entry steps).bind (next? tree entry)

/-- Every file that is come to has the identity by which it is looked for. -/
def FindsAgain (tree : FileTree) (entry : Path) : Prop :=
  ∀ steps path, link? tree entry steps = some path → (tree.key path).same path = true

/-- The parents come back to a file that they have come to before. -/
def Returns (tree : FileTree) (entry : Path) : Prop :=
  ∃ steps earlier layer parent met, earlier ≤ steps ∧ lineage? tree entry steps = some layer ∧
    layer.parent = some parent ∧ lineage? tree entry earlier = some met ∧
    met.scope.same parent = true

theorem lineage?_eq_bind (tree : FileTree) (entry : Path) (steps : Nat) :
    lineage? tree entry steps =
      (link? tree entry steps).bind fun path => (loadLayer tree path).toOption := by
  cases steps with
  | zero => rw [lineage?, link?, Option.bind_some]
  | succ steps => rw [lineage?, link?, Option.bind_assoc]

theorem lineage?_of_link? (link : link? tree entry steps = some path) :
    lineage? tree entry steps = (loadLayer tree path).toOption := by
  rw [lineage?_eq_bind, link, Option.bind_some]

theorem exists_link? (come : lineage? tree entry steps = some layer) :
    ∃ path, link? tree entry steps = some path ∧ loadLayer tree path = .ok layer := by
  rw [lineage?_eq_bind] at come
  obtain ⟨path, link, read⟩ := Option.bind_eq_some_iff.mp come
  refine ⟨path, link, ?_⟩
  cases loaded : loadLayer tree path with
  | error fault => simp [loaded, Except.toOption] at read
  | ok other => simpa [loaded, Except.toOption] using read

theorem lineage?_of_ok (link : link? tree entry steps = some path)
    (loaded : loadLayer tree path = .ok layer) : lineage? tree entry steps = some layer := by
  rw [lineage?_of_link? link, loaded]
  rfl

/-- A layer that is come to is stored where it is looked for, if the files are found again. -/
theorem FindsAgain.same (again : FindsAgain tree entry)
    (link : link? tree entry steps = some path) (come : lineage? tree entry steps = some layer) :
    layer.scope.same path = true := by
  obtain ⟨path', link', loaded⟩ := exists_link? come
  cases link.symm.trans link'
  rw [(read_of_loadLayer loaded).1]
  exact again steps path link

theorem next?_eq_some_iff : next? tree entry layer = some parent ↔
    layer.parent = some parent ∧ isFollowed tree (tree.key entry) parent = true :=
  Option.filter_eq_some_iff

theorem next?_eq_none (ended : ∀ parent, layer.parent = some parent →
    isFollowed tree (tree.key entry) parent = false) : next? tree entry layer = none := by
  refine Option.filter_eq_none_iff.mpr fun parent named => ?_
  rw [ended parent named]
  exact Bool.false_ne_true

theorem isFollowed_of_isFile (isFile : tree.isFile parent = true) (start : Path) :
    isFollowed tree start parent = true := by
  rw [isFollowed, isFile, Bool.or_true]

theorem link?_succ (come : lineage? tree entry steps = some layer) :
    link? tree entry (steps + 1) = next? tree entry layer := by
  rw [link?, come, Option.bind_some]

theorem link?_of_isFile (come : lineage? tree entry steps = some layer)
    (named : layer.parent = some parent) (isFile : tree.isFile parent = true) :
    link? tree entry (steps + 1) = some parent := by
  rw [link?_succ come, next?_eq_some_iff]
  exact ⟨named, isFollowed_of_isFile isFile _⟩

theorem exists_parent (link : link? tree entry (steps + 1) = some path) :
    ∃ layer, lineage? tree entry steps = some layer ∧ layer.parent = some path ∧
      isFollowed tree (tree.key entry) path = true := by
  obtain ⟨layer, come, next⟩ := Option.bind_eq_some_iff.mp link
  exact ⟨layer, come, next?_eq_some_iff.mp next⟩

/-- Whatever is looked for is looked for by an identity. -/
theorem exists_key_of_link? (link : link? tree entry steps = some path) :
    ∃ written, path = tree.key written := by
  cases steps with
  | zero => exact ⟨entry, (Option.some.inj link).symm⟩
  | succ steps =>
    obtain ⟨layer, come, named, -⟩ := exists_parent link
    obtain ⟨_, -, loaded⟩ := exists_link? come
    exact exists_key_of_loadLayer loaded named

theorem lineage?_of_le {later : Nat} (ended : lineage? tree entry steps = none)
    (behind : steps ≤ later) : lineage? tree entry later = none := by
  induction behind with
  | refl => exact ended
  | step _ ih => rw [lineage?, ih, Option.bind_none]

/-- All files are found again, if those up to the last one are. -/
theorem FindsAgain.of_ended {count : Nat} (ended : lineage? tree entry count = none)
    (found : ∀ steps ≤ count, ∀ path ∈ link? tree entry steps,
      (tree.key path).same path = true) : FindsAgain tree entry := by
  intro steps path link
  by_cases within : steps ≤ count
  · exact found steps within path link
  · obtain ⟨before, rfl⟩ := Nat.exists_eq_add_one.mpr (by omega : 0 < steps)
    obtain ⟨layer, come, -⟩ := exists_parent link
    cases (lineage?_of_le ended (by omega)).symm.trans come

/-- Behind the same layer come the same layers. -/
theorem lineage?_add {other : Nat} (same : lineage? tree entry steps = lineage? tree entry other)
    (more : Nat) : lineage? tree entry (steps + more) = lineage? tree entry (other + more) := by
  induction more with
  | zero => exact same
  | succ more ih => rw [← Nat.add_assoc, ← Nat.add_assoc, lineage?, lineage?, ih]

/-- A file that is come to is read under its canonical path. -/
theorem canonical?_of_link? (idempotent : tree.Idempotent) (named : IsPlace tree.workingDirectory)
    (link : link? tree entry steps = some path) (loaded : loadLayer tree path = .ok layer) :
    tree.canonical? path = some layer.scope ∧
      tree.canonical? layer.scope = some layer.scope := by
  obtain ⟨scope, content, read⟩ := read_of_loadLayer loaded
  obtain ⟨written, rfl⟩ := exists_key_of_link? link
  obtain ⟨standing, stands⟩ := FileTree.exists_find_of_read read
  obtain ⟨canonical, found⟩ :=
    Option.ne_none_iff_exists'.mp (FileTree.canonical?_key idempotent named stands)
  rw [FileTree.key_of_canonical? found] at scope
  rw [scope]
  exact ⟨found, idempotent _ _ found⟩

/-! ### Loading, as the steps it takes -/

/-- Loading a layer on the way from an entry comes to an end, with these layers loaded and with this
failure, if any. -/
inductive LoadsTo (tree : FileTree) (entry : Path) :
    Path → Cascade → Cascade → Option Error → Prop where
  | known {path : Path} {cascade : Cascade} (known : cascade.contains path = true) :
      LoadsTo tree entry path cascade cascade none
  | failed {path : Path} {cascade : Cascade} {fault : Error}
      (absent : cascade.contains path = false) (failed : loadLayer tree path = .error fault) :
      LoadsTo tree entry path cascade cascade (some fault)
  | last {path : Path} {cascade : Cascade} {layer : Layer}
      (absent : cascade.contains path = false) (loaded : loadLayer tree path = .ok layer)
      (ended : next? tree entry layer = none) :
      LoadsTo tree entry path cascade (cascade.insert layer) none
  | further {path parent : Path} {cascade after : Cascade} {layer : Layer} {fault : Option Error}
      (absent : cascade.contains path = false) (loaded : loadLayer tree path = .ok layer)
      (named : next? tree entry layer = some parent)
      (others : LoadsTo tree entry parent (cascade.insert layer) after fault) :
      LoadsTo tree entry path cascade after fault

namespace Cascade

variable {cascade after : Cascade}

/-- A chain is a cycle if and only if the walk never ends. -/
theorem exists_cycle_iff {scope : Path} :
    (∃ again, cascade.chain scope = .error (.cycle again)) ↔
      ∀ steps, cascade.ancestor? scope steps ≠ none := by
  constructor
  · rintro ⟨again, failed⟩
    -- Of the ways in which the chain can fail only the cycle goes on forever; the others end at the
    -- layer that they name.
    cases chain_eq_error_iff.mp failed with
    | cycle before met met' => exact ancestor?_ne_none_of_again before met met'
  · intro endless
    rcases cascade.chain_comes scope with ⟨-, -, -, reaches⟩ | ⟨error, failed, fails⟩
    · obtain ⟨steps, top, met, noParent, -⟩ := reaches
      exact absurd (ancestor?_of_top met noParent) (endless _)
    · cases fails with
      | unknown absent => exact absurd (contains_eq_false_iff.mp absent) (endless 0)
      | missing met named absent =>
        exact absurd (EndsAt.of_missing met named absent).ended (endless _)
      | cycle => exact ⟨_, failed⟩

/-- The layers that have been loaded, the latest first, are those come to so far, each stored once
under its canonical path. -/
structure Holds (cascade : Cascade) (tree : FileTree) (entry : Path) : Prop where
  passed : ∀ i < cascade.layers.length, lineage? tree entry i = cascade.layers.reverse[i]?
  apart : cascade.layers.Pairwise fun layer other => layer.scope.same other.scope = false
  canonical : ∀ layer ∈ cascade.layers, tree.canonical? layer.scope = some layer.scope

/-- And what comes next, if anything does, has been loaded as well. -/
structure HoldsAll (cascade : Cascade) (tree : FileTree) (entry : Path) : Prop
    extends cascade.Holds tree entry where
  ended : ∀ path, link? tree entry cascade.layers.length = some path →
    cascade.contains path = true
  again : ∀ layer, lineage? tree entry cascade.layers.length = some layer →
    layer ∈ cascade.layers

theorem layers_insert (absent : cascade.contains layer.scope = false) :
    (cascade.insert layer).layers = layer :: cascade.layers := by
  rw [insert, List.filter_eq_self.mpr]
  intro other member
  rw [contains_eq_false_iff, get?, List.find?_eq_none] at absent
  simpa using absent other member

namespace Holds

/-- One more file is read and stored. -/
theorem insert (holds : cascade.Holds tree entry) (absent : cascade.contains layer.scope = false)
    (come : lineage? tree entry cascade.layers.length = some layer)
    (canonical : tree.canonical? layer.scope = some layer.scope) :
    (cascade.insert layer).Holds tree entry := by
  have layers := layers_insert absent
  -- The new layer comes behind those that have been passed, and stands apart from them because its
  -- scope was absent.
  refine ⟨fun i within => ?_, ?_, ?_⟩
  · rw [layers, List.length_cons] at within
    rw [layers, List.reverse_cons]
    by_cases before : i < cascade.layers.length
    · rw [List.getElem?_append_left (by simpa using before)]
      exact holds.passed i before
    · obtain rfl : i = cascade.layers.length := by omega
      rw [List.getElem?_append_right (by simp), List.length_reverse, Nat.sub_self]
      exact come
  · rw [layers]
    refine .cons (fun other member => ?_) holds.apart
    rw [contains_eq_false_iff, get?, List.find?_eq_none] at absent
    have different := absent other member
    rw [Path.same_iff, eq_comm, ← Path.same_iff] at different
    simpa using different
  · rw [layers]
    exact List.forall_mem_cons.mpr ⟨canonical, holds.canonical⟩

/-- It is stored where it was looked for, so there is one file less to be loaded. -/
theorem next (holds : cascade.Holds tree entry) (idempotent : tree.Idempotent)
    (named : IsPlace tree.workingDirectory) (again : FindsAgain tree entry)
    (link : link? tree entry cascade.layers.length = some path)
    (absent : cascade.contains path = false) (loaded : loadLayer tree path = .ok layer) :
    (cascade.insert layer).Holds tree entry ∧
      link? tree entry (cascade.insert layer).layers.length = next? tree entry layer ∧
      (cascade.insert layer).unloaded tree < cascade.unloaded tree := by
  have come := lineage?_of_ok link loaded
  obtain ⟨found, canonical⟩ := canonical?_of_link? idempotent named link loaded
  have scope := FileTree.key_of_canonical? found
  have absent : cascade.contains layer.scope = false := by
    rw [contains_congr (scope ▸ again _ _ link), absent]
  -- the layer is listed in the tree and was not stored before, so the measure decreases
  refine ⟨holds.insert absent come canonical, ?_, unloaded_insert_lt ?_ absent⟩
  · rw [layers_insert absent, List.length_cons, link?_succ come]
  · exact exists_mem_of_loadLayer loaded (scope ▸ canonical)

theorem exists_of_mem (holds : cascade.Holds tree entry) (member : layer ∈ cascade.layers) :
    ∃ i < cascade.layers.length, lineage? tree entry i = some layer := by
  obtain ⟨i, inside, rfl⟩ := List.mem_iff_getElem.mp (List.mem_reverse.mpr member)
  have within : i < cascade.layers.length := by simpa using inside
  exact ⟨i, within, (holds.passed i within).trans (List.getElem?_eq_getElem inside)⟩

/-- What is read by a path under which a layer is stored is that layer. -/
theorem mem_of_known (holds : cascade.Holds tree entry) (idempotent : tree.Idempotent)
    (named : IsPlace tree.workingDirectory) (link : link? tree entry steps = some path)
    (known : cascade.contains path = true) (come : lineage? tree entry steps = some layer) :
    layer ∈ cascade.layers := by
  obtain ⟨met, stands⟩ := contains_iff.mp known
  obtain ⟨member, same⟩ := get?_eq_some stands
  obtain ⟨earlier, -, come'⟩ := holds.exists_of_mem member
  obtain ⟨_, link', loaded⟩ := exists_link? come
  cases link.symm.trans link'
  obtain ⟨other, -, loaded'⟩ := exists_link? come'
  -- Both are read under the one canonical path that is spelled like this one.
  have leads := (canonical?_of_link? idempotent named link loaded).1
  have key := FileTree.key_of_same (holds.canonical met member) same (leads ▸ Option.some_ne_none _)
  rw [loadLayer_congr (key.trans (read_of_loadLayer loaded').1), loaded'] at loaded
  exact Except.ok.inj loaded ▸ member

end Holds

/-- Loading comes to an end, because each file that is read is one of those listed in the tree and
is found again where it is stored. -/
theorem loadFrom_comes (idempotent : tree.Idempotent) (named : IsPlace tree.workingDirectory)
    (again : FindsAgain tree entry) {fuel : Nat} (holds : cascade.Holds tree entry)
    (link : link? tree entry cascade.layers.length = some path)
    (enough : cascade.unloaded tree < fuel) :
    ∃ after fault, loadFrom tree (tree.key entry) path fuel cascade = (after, fault) ∧
      LoadsTo tree entry path cascade after fault ∧ (fault = none → after.HoldsAll tree entry) := by
  induction fuel generalizing cascade path with
  | zero => exact absurd enough (Nat.not_lt_zero _)
  | succ fuel ih =>
    rw [loadFrom_succ]
    split
    next known =>
      -- a cycle: what comes next is there already
      refine ⟨_, _, rfl, .known known, fun _ => ⟨holds, fun other link' => ?_,
        fun layer come => ?_⟩⟩
      · cases link.symm.trans link'
        exact known
      · exact holds.mem_of_known idempotent named link known come
    next fresh =>
      have absent : cascade.contains path = false := Bool.not_eq_true _ ▸ fresh
      cases loaded : loadLayer tree path with
      | error fault => exact ⟨_, _, rfl, .failed absent loaded, nofun⟩
      | ok layer =>
        obtain ⟨holds', next, less⟩ := holds.next idempotent named again link absent loaded
        -- the parents end with no parent, or with one that is not followed
        have atEnd (ended : next? tree entry layer = none) :
            LoadsTo tree entry path cascade (cascade.insert layer) none ∧
              ((none : Option Error) = none → (cascade.insert layer).HoldsAll tree entry) := by
          have nothing := next.trans ended
          refine ⟨.last absent loaded ended, fun _ => ⟨holds', fun other link' => ?_,
            fun other come => ?_⟩⟩
          · cases nothing.symm.trans link'
          · rw [lineage?_eq_bind, nothing, Option.bind_none] at come
            cases come
        dsimp only
        split
        next top => exact ⟨_, _, rfl, atEnd (next?_eq_none (by simp [top]))⟩
        next parent parents =>
          split
          next isFollowed =>
            have further := next?_eq_some_iff.mpr ⟨parents, isFollowed⟩
            obtain ⟨after, fault, followed, loads, whole⟩ :=
              ih holds' (next.trans further) (by omega)
            exact ⟨after, fault, followed, .further absent loaded further loads, whole⟩
          next notFollowed =>
            exact ⟨_, _, rfl, atEnd (next?_eq_none (by simp [parents, notFollowed]))⟩

end Cascade

end Config

end SuiteRunner
