import SuiteRunner.Proofs.Config.Lineage

/-!
# What has been loaded, and what it resolves to

When loading ends without a failure, the layers that have been loaded are those that are come to
from the entry. If they are found where they are stored, the walk from scope to scope meets them in
the order in which they were loaded, so the chain of the entry has all of them, or it tells that a
parent is no file or that the parents come back.
-/

namespace SuiteRunner

open Files

namespace Config

variable {tree : FileTree} {entry path parent : Path} {layer : Layer} {steps : Nat}

namespace Cascade

variable {cascade after : Cascade}

/-! ### The layers that have been loaded -/

theorem Holds.get?_of_mem {asked : Path} (holds : cascade.Holds tree entry)
    (member : layer ∈ cascade.layers) (same : layer.scope.same asked = true) :
    cascade.get? asked = some layer := by
  -- Two layers of one identity would be one layer, so the first that is found is the one that is
  -- meant.
  have distinct : (cascade.layers.map Layer.identity).Nodup :=
    List.pairwise_map.mpr (holds.apart.imp fun different => by
      rw [← Bool.not_eq_true, Path.same_iff] at different
      exact different)
  cases found : cascade.get? asked with
  | none =>
    rw [get?, List.find?_eq_none] at found
    exact absurd same (found layer member)
  | some other =>
    obtain ⟨member', same'⟩ := get?_eq_some found
    rw [Path.same_iff] at same same'
    rw [List.inj_on_of_nodup_map distinct member' member (same'.trans same.symm)]

theorem Holds.exists_of_lt (holds : cascade.Holds tree entry) {i : Nat}
    (within : i < cascade.layers.length) : ∃ layer, lineage? tree entry i = some layer := by
  rw [holds.passed i within]
  exact ⟨_, List.getElem?_eq_getElem (by simpa using within)⟩

theorem Holds.mem_of_lt (holds : cascade.Holds tree entry) {i : Nat}
    (within : i < cascade.layers.length) (come : lineage? tree entry i = some layer) :
    layer ∈ cascade.layers := by
  rw [holds.passed i within] at come
  exact List.mem_reverse.mp (List.mem_of_getElem? come)

namespace HoldsAll

theorem length_pos (all : cascade.HoldsAll tree entry) : 0 < cascade.layers.length := by
  refine Nat.pos_of_ne_zero fun empty => ?_
  obtain ⟨layer, found⟩ := contains_iff.mp (all.ended (tree.key entry) (empty ▸ rfl))
  rw [List.length_eq_zero_iff] at empty
  simp [get?, empty] at found

/-- Every layer that is come to has been loaded. -/
theorem mem_of_come (all : cascade.HoldsAll tree entry)
    (come : lineage? tree entry steps = some layer) : layer ∈ cascade.layers := by
  induction steps using Nat.strongRecOn with
  | _ steps ih =>
    by_cases within : steps < cascade.layers.length
    · exact all.mem_of_lt within come
    · -- Behind a layer that is come to again comes what came behind it before.
      obtain ⟨more, rfl⟩ := Nat.exists_eq_add_of_le (Nat.le_of_not_lt within)
      have reached : lineage? tree entry cascade.layers.length ≠ none := by
        intro ended
        cases (lineage?_of_le ended (Nat.le_add_right _ more)).symm.trans come
      obtain ⟨last, come'⟩ := Option.ne_none_iff_exists'.mp reached
      obtain ⟨earlier, before, passed⟩ := all.exists_of_mem (all.again last come')
      rw [lineage?_add (come'.trans passed.symm)] at come
      exact ih (earlier + more) (by omega) come

/-- Every parent that is a file has been loaded. -/
theorem closed (all : cascade.HoldsAll tree entry) (again : FindsAgain tree entry) :
    cascade.Closed tree := by
  intro layer member parent named isFile
  obtain ⟨i, within, come⟩ := all.exists_of_mem member
  have link := link?_of_isFile come named isFile
  by_cases next : i + 1 < cascade.layers.length
  · obtain ⟨other, come'⟩ := all.exists_of_lt next
    have stands := all.get?_of_mem (all.mem_of_come come') (again.same link come')
    exact contains_iff.mpr ⟨other, stands⟩
  · have last : i + 1 = cascade.layers.length := by omega
    exact all.ended parent (last ▸ link)

/-! ### The walk from scope to scope -/

/-- The walk meets the layers in the order in which they were loaded. -/
theorem ancestor?_of_come (all : cascade.HoldsAll tree entry) (again : FindsAgain tree entry)
    {i : Nat} (within : i < cascade.layers.length) (come : lineage? tree entry i = some layer) :
    cascade.ancestor? (tree.key entry) i = some layer := by
  induction i generalizing layer with
  | zero => exact all.get?_of_mem (all.mem_of_come come) (again.same rfl come)
  | succ i ih =>
    obtain ⟨path, link, -⟩ := exists_link? come
    obtain ⟨child, come', named, -⟩ := exists_parent link
    have met := ih (Nat.lt_of_succ_lt within) come'
    rw [ancestor?_of_parent met named]
    exact all.get?_of_mem (all.mem_of_come come) (again.same link come)

/-- The last layer that was loaded, and what the walk meets behind it. -/
theorem exists_last (all : cascade.HoldsAll tree entry) (again : FindsAgain tree entry) :
    ∃ i last, i + 1 = cascade.layers.length ∧ lineage? tree entry i = some last ∧
      cascade.ancestor? (tree.key entry) cascade.layers.length =
        last.parent.bind cascade.get? := by
  obtain ⟨i, length⟩ := Nat.exists_eq_add_one.mpr all.length_pos
  obtain ⟨last, come⟩ := all.exists_of_lt (by omega : i < cascade.layers.length)
  have met := all.ancestor?_of_come again (by omega) come
  exact ⟨i, last, length.symm, come, length ▸ ancestor?_succ met⟩

/-- If the walk goes on behind the last layer, it goes on for ever. -/
theorem ancestor?_ne_none (all : cascade.HoldsAll tree entry) (again : FindsAgain tree entry)
    (further : cascade.ancestor? (tree.key entry) cascade.layers.length = some layer) (i : Nat) :
    cascade.ancestor? (tree.key entry) i ≠ none := by
  have member := (get?_eq_some (get?_of_ancestor? further)).1
  obtain ⟨earlier, before, come⟩ := all.exists_of_mem member
  have met := all.ancestor?_of_come again before come
  exact ancestor?_ne_none_of_again before met further i

/-- What would be loaded next is what the walk meets. -/
theorem ancestor?_length_ne_none (all : cascade.HoldsAll tree entry)
    (again : FindsAgain tree entry)
    (come : lineage? tree entry cascade.layers.length ≠ none) :
    cascade.ancestor? (tree.key entry) cascade.layers.length ≠ none := by
  obtain ⟨layer, come⟩ := Option.ne_none_iff_exists'.mp come
  obtain ⟨path, link, -⟩ := exists_link? come
  obtain ⟨met, stands⟩ := contains_iff.mp (all.ended path link)
  obtain ⟨i, last, length, come', walk⟩ := all.exists_last again
  obtain ⟨child, come'', named, -⟩ := exists_parent (length ▸ link)
  cases come'.symm.trans come''
  rw [walk, named, Option.bind_some, stands]
  exact Option.some_ne_none _

theorem returns_iff (all : cascade.HoldsAll tree entry) (again : FindsAgain tree entry) :
    Returns tree entry ↔
      cascade.ancestor? (tree.key entry) cascade.layers.length ≠ none := by
  -- A lineage that returns is a walk through the cascade that goes on behind all of its layers: it
  -- passes more places than there are layers to stand on.
  constructor
  · rintro ⟨steps, earlier, layer, parent, met, before, come, named, come', same⟩
    by_cases within : steps < cascade.layers.length
    · -- The walk meets the parent for the second time.
      have here := all.ancestor?_of_come again within come
      have back := ancestor?_of_parent here named
      rw [all.get?_of_mem (all.mem_of_come come') same] at back
      have passed := all.ancestor?_of_come again (by omega) come'
      exact ancestor?_ne_none_of_again (Nat.lt_succ_of_le before) passed back _
    · refine all.ancestor?_length_ne_none again fun ended => ?_
      cases (lineage?_of_le ended (Nat.le_of_not_lt within)).symm.trans come
  · intro further
    obtain ⟨met, further⟩ := Option.ne_none_iff_exists'.mp further
    -- The last layer still has a parent, which is among the layers; the lineage passed it before.
    obtain ⟨i, last, length, come, walk⟩ := all.exists_last again
    obtain ⟨parent, named, found⟩ := Option.bind_eq_some_iff.mp (walk.symm.trans further)
    obtain ⟨member, same⟩ := get?_eq_some found
    obtain ⟨earlier, before, come'⟩ := all.exists_of_mem member
    exact ⟨i, earlier, last, parent, met, by omega, come, named, come', same⟩

theorem exists_cycle_iff_returns (all : cascade.HoldsAll tree entry)
    (again : FindsAgain tree entry) :
    (∃ scope, cascade.chain (tree.key entry) = .error (.cycle scope)) ↔ Returns tree entry := by
  rw [exists_cycle_iff, all.returns_iff again]
  constructor
  · exact fun endless => endless _
  · intro further
    obtain ⟨layer, further⟩ := Option.ne_none_iff_exists'.mp further
    exact all.ancestor?_ne_none again further

/-- A chain consists of all layers that have been loaded, in this order. -/
theorem chain_eq (all : cascade.HoldsAll tree entry) (again : FindsAgain tree entry)
    {chain : List Layer} (followed : cascade.chain (tree.key entry) = .ok chain) :
    chain = cascade.layers.reverse ∧ ∀ i, chain[i]? = lineage? tree entry i := by
  have walk := (isWalk_of_chain followed).1
  -- A walk that goes on behind all layers never ends, and `chain` would have failed on it.
  have ended : cascade.ancestor? (tree.key entry) cascade.layers.length = none := by
    by_contra further
    obtain ⟨layer, further⟩ := Option.ne_none_iff_exists'.mp further
    obtain ⟨scope, failed⟩ := exists_cycle_iff.mpr (all.ancestor?_ne_none again further)
    cases failed.symm.trans followed
  have nothing : lineage? tree entry cascade.layers.length = none := by
    by_contra come
    exact all.ancestor?_length_ne_none again come ended
  have same (i : Nat) : chain[i]? = lineage? tree entry i := by
    rw [walk.walked]
    -- Inside of the layers the walk and the lineage agree, and behind them both have ended.
    by_cases within : i < cascade.layers.length
    · obtain ⟨layer, come⟩ := all.exists_of_lt within
      rw [all.ancestor?_of_come again within come, come]
    · have behind := Nat.le_of_not_lt within
      rw [ancestor?_of_le ended behind, lineage?_of_le nothing behind]
  refine ⟨List.ext_getElem? fun i => ?_, same⟩
  rw [same]
  by_cases within : i < cascade.layers.length
  · exact all.passed i within
  · have behind := Nat.le_of_not_lt within
    rw [lineage?_of_le nothing behind, List.getElem?_eq_none (by simpa using behind)]

end HoldsAll

/-! ### What has been loaded, and what it resolves to -/

/-- All layers that are come to have been loaded, each once and under its canonical path, and the
chain tells what the parents come to. -/
structure Sound (cascade : Cascade) (tree : FileTree) (entry : Path) : Prop where
  once : cascade.layers.Pairwise fun layer other => layer.scope.same other.scope = false
  canonical : ∀ layer ∈ cascade.layers, tree.canonical? layer.scope = some layer.scope
  come : ∀ layer, layer ∈ cascade.layers ↔ ∃ steps, lineage? tree entry steps = some layer
  closed : cascade.Closed tree
  failures : ∀ error, cascade.resolve (tree.key entry) = .error error →
    (∃ child parent, error = .missingParent child parent ∧ tree.isFile parent = false) ∨
      ∃ scope, error = .cycle scope
  cycle : (∃ scope, cascade.resolve (tree.key entry) = .error (.cycle scope)) ↔
    Returns tree entry
  whole : ∀ config, cascade.resolve (tree.key entry) = .ok config →
    ∃ chain, config = flatten chain ∧ chain.Perm cascade.layers ∧
      ∀ i, chain[i]? = lineage? tree entry i

theorem resolve_eq_error_iff {scope : Path} {error : Error} :
    cascade.resolve scope = .error error ↔ cascade.chain scope = .error error := by
  rw [resolve]
  cases cascade.chain scope <;> simp [Except.map]

theorem HoldsAll.sound (all : cascade.HoldsAll tree entry) (again : FindsAgain tree entry) :
    cascade.Sound tree entry := by
  refine ⟨all.apart, all.canonical, fun layer => ?_, all.closed again, fun error failed => ?_, ?_,
    fun config resolved => ?_⟩
  · constructor
    · intro member
      obtain ⟨i, -, come⟩ := all.exists_of_mem member
      exact ⟨i, come⟩
    · rintro ⟨steps, come⟩
      exact all.mem_of_come come
  · cases chain_eq_error_iff.mp (resolve_eq_error_iff.mp failed) with
    | unknown absent =>
      obtain ⟨layer, come⟩ := all.exists_of_lt all.length_pos
      have first := all.ancestor?_of_come again all.length_pos come
      cases (contains_eq_false_iff.mp absent).symm.trans first
    -- The only parent that can be missing is one that is no file, since the others are loaded.
    | @missing _ child parent met named absent =>
      have member := (get?_eq_some (get?_of_ancestor? met)).1
      refine .inl ⟨_, _, rfl, ?_⟩
      by_contra isFile
      have known := all.closed again child member parent named (by simpa using isFile)
      cases known.symm.trans absent
    | cycle => exact .inr ⟨_, rfl⟩
  · simp only [resolve_eq_error_iff]
    exact all.exists_cycle_iff_returns again
  · obtain ⟨chain, followed, rfl⟩ := map_eq_ok resolved
    obtain ⟨order, same⟩ := all.chain_eq again followed
    exact ⟨chain, rfl, order ▸ List.reverse_perm _, same⟩

/-- What has been loaded tells whether the files are found again. -/
theorem Sound.findsAgain (sound : cascade.Sound tree entry) : FindsAgain tree entry := by
  have found {path : Path} (known : cascade.contains path = true) :
      (tree.key path).same path = true := by
    obtain ⟨layer, stands⟩ := contains_iff.mp known
    obtain ⟨member, same⟩ := get?_eq_some stands
    exact FileTree.same_key_of_same (sound.canonical layer member) same
  have first : cascade.contains (tree.key entry) = true := by
    refine Bool.not_eq_false _ ▸ fun absent => ?_
    have failed := resolve_eq_error_iff.mpr (chain_eq_error_iff.mpr (.unknown absent))
    rcases sound.failures _ failed with ⟨_, _, different, -⟩ | ⟨_, different⟩ <;> cases different
  intro steps path link
  cases steps with
  | zero =>
    cases link
    exact found first
  | succ steps =>
    obtain ⟨child, come, named, followed⟩ := exists_parent link
    refine found ?_
    rcases (Bool.or_eq_true _ _).mp followed with same | isFile
    · rwa [← contains_congr same]
    · exact sound.closed child ((sound.come child).mpr ⟨steps, come⟩) path named isFile

end Cascade

/-! ### Whole loads -/

/-- If every file is found again, loading comes to an end; and what has been loaded without a
failure is sound if and only if every file is found again. -/
theorem load_sound_iff (idempotent : tree.Idempotent) (named : IsPlace tree.workingDirectory)
    (entry : Path) :
    (FindsAgain tree entry → ∃ after fault, LoadsTo tree entry (tree.key entry) {} after fault ∧
      ({} : Cascade).load tree entry = (after, fault.elim (.ok (tree.key entry)) .error)) ∧
    ∀ after scope, ({} : Cascade).load tree entry = (after, .ok scope) →
      scope = tree.key entry ∧ (after.Sound tree entry ↔ FindsAgain tree entry) := by
  have nothing : ({} : Cascade).Holds tree entry :=
    ⟨fun i before => absurd before (Nat.not_lt_zero i), .nil, List.forall_mem_nil _⟩
  have first : link? tree entry ({} : Cascade).layers.length = some (tree.key entry) := rfl
  have enough := Cascade.unloaded_lt {} tree
  have loads (again : FindsAgain tree entry) :=
    Cascade.loadFrom_comes idempotent named again nothing first enough
  constructor
  · intro again
    obtain ⟨after, fault, followed, ends, -⟩ := loads again
    refine ⟨after, fault, ends, ?_⟩
    unfold Cascade.load
    dsimp only
    rw [followed]
    cases fault <;> rfl
  · intro after scope loaded
    unfold Cascade.load at loaded
    dsimp only at loaded
    split at loaded
    next result ended =>
      cases loaded
      refine ⟨rfl, fun sound => sound.findsAgain, fun again => ?_⟩
      obtain ⟨after', fault, followed, -, whole⟩ := loads again
      cases ended.symm.trans followed
      exact (whole rfl).sound again
    next => cases loaded

/-- A suite that names its parent through a link. -/
def linkedParent : FileTree where
  entries :=
    [ (["litmus.toml"], .file .empty false),
      (["suite"], .directory),
      (["suite", "up"], .link ".."),
      (["suite", "litmus.toml"], .file "parent = \"up/./litmus.toml\"\n".toUTF8 false) ]

theorem linkedParent_sound :
    ∃ after, LoadsTo linkedParent ⟨"suite//litmus.toml"⟩ ⟨"/suite/litmus.toml"⟩ {} after none ∧
      ({} : Cascade).load linkedParent ⟨"suite//litmus.toml"⟩ =
        (after, .ok ⟨"/suite/litmus.toml"⟩) ∧
      after.Sound linkedParent ⟨"suite//litmus.toml"⟩ := by
  have idempotent : linkedParent.Idempotent :=
    FileTree.idempotent_of_entries (FileTree.Inside.root _) (by decide +kernel)
  have last : (lineage? linkedParent ⟨"suite//litmus.toml"⟩ 2).isNone = true := by decide +kernel
  have again : FindsAgain linkedParent ⟨"suite//litmus.toml"⟩ :=
    .of_ended (Option.isNone_iff_eq_none.mp last) (by decide +kernel)
  have key : linkedParent.key ⟨"suite//litmus.toml"⟩ = ⟨"/suite/litmus.toml"⟩ := by
    decide +kernel
  have done : (({} : Cascade).load linkedParent ⟨"suite//litmus.toml"⟩).2.toOption.isSome =
      true := by decide +kernel
  obtain ⟨ends, sound_iff⟩ :=
    load_sound_iff idempotent (List.forall_mem_nil _) ⟨"suite//litmus.toml"⟩
  obtain ⟨after, fault, loads, loaded⟩ := ends again
  cases fault with
  | some error =>
    rw [loaded] at done
    cases done
  | none =>
    have sound := (sound_iff after _ loaded).2.mpr again
    rw [key] at loads loaded
    exact ⟨after, loads, loaded, sound⟩

/-- A suite that names its parent, a file in another directory, with a `/.` behind it. -/
def dottedParent : FileTree where
  entries :=
    [ (["a"], .directory),
      (["a", "litmus.toml"], .file .empty false),
      (["b"], .directory),
      (["b", "litmus.toml"], .file "parent = \"../a/litmus.toml/.\"\n".toUTF8 false) ]

/-- It has been loaded, but not under the path by which the chain looks for it. -/
theorem dottedParent_missing :
    dottedParent.Idempotent ∧
      ∃ after, ({} : Cascade).load dottedParent ⟨"/b/litmus.toml"⟩ =
          (after, .ok ⟨"/b/litmus.toml"⟩) ∧
        after.resolve ⟨"/b/litmus.toml"⟩ =
          .error (.missingParent ⟨"/b/litmus.toml"⟩ ⟨"/b/../a/litmus.toml"⟩) ∧
        dottedParent.isFile ⟨"/b/../a/litmus.toml"⟩ = true := by
  have idempotent : dottedParent.Idempotent :=
    FileTree.idempotent_of_entries (FileTree.Inside.root _) (by decide +kernel)
  have loaded : (({} : Cascade).load dottedParent ⟨"/b/litmus.toml"⟩).2 =
      .ok ⟨"/b/litmus.toml"⟩ := by decide +kernel
  refine ⟨idempotent, (({} : Cascade).load dottedParent ⟨"/b/litmus.toml"⟩).1, ?_, ?_, ?_⟩
  · rw [← loaded]
  · rw [Cascade.resolve_eq_error_iff]
    decide +kernel
  · decide +kernel

end Config

end SuiteRunner
