import SuiteRunner.Proofs.Config.Loading

/-!
# Inheriting from the directories around

A layer whose file names no parent is open: what it inherits from is left to the directories
around it, and it has a parent only once a walk has entered its directory. Two cascades that
differ in the directories that were entered have the same chain for a scope, if all open
layers with a parent in that chain lie in directories that both have entered.
-/

namespace SuiteRunner.Config

open Files

variable {tree : FileTree}

/-- Whether a layer file names no parent. -/
def isOpen (tree : FileTree) (scope : Path) : Bool :=
  (loadLayer tree scope).toOption.any (·.parent.isNone)

theorem isOpen_eq {scope : Path} {layer : Layer} (loaded : loadLayer tree scope = .ok layer) :
    isOpen tree scope = layer.parent.isNone := by
  rw [isOpen, loaded]
  rfl

/-- Every open layer that has a parent lies in a directory of some kind. -/
def ClosedIn (tree : FileTree) (kept : Path → Bool) (chain : List Path) : Prop :=
  ∀ scope ∈ chain.dropLast, isOpen tree scope = true → kept (directoryOf scope) = true

instance (tree : FileTree) (kept : Path → Bool) (chain : List Path) :
    Decidable (ClosedIn tree kept chain) :=
  inferInstanceAs (Decidable (∀ scope ∈ chain.dropLast, isOpen tree scope = true →
    kept (directoryOf scope) = true))

/-- Only those layers around that belong to directories of some kind. -/
def restrictTo (kept : Path → Bool) (around : Path → Option Path) (scope : Path) : Option Path :=
  if kept (directoryOf scope) then around scope else none

namespace Cascade

variable {cascade full : Cascade} {around : Path → Option Path} {kept : Path → Bool}
  {scope : Path} {chain : List Layer}

/-- The parent of a layer is a file if anything is found under it. -/
theorem Tracks.isFile_parent (tracks : cascade.Tracks tree around)
    (spelled : parentsWellSpelled tree = true) {layer next : Layer} {parent : Path}
    (member : layer ∈ cascade.layers) (named : layer.parent = some parent)
    (found : cascade.get? parent = some next) : tree.isFile parent = true := by
  obtain ⟨file, loaded, -, parents⟩ := exists_of_view (tracks.shown layer member)
  rw [parents] at named
  cases written : file.parent with
  | none =>
    rw [written, Option.none_or] at named
    exact (tracks.walked _ parent named).2.isFile
  | some parent' =>
    rw [written, Option.some_or] at named
    cases named
    obtain ⟨known, same⟩ := get?_eq_some found
    have held := tracks.held layer member
    exact isFile_of_wellSpelled (wellSpelled_of_loadLayer spelled held loaded written)
      (tracks.held next known) same

/-- An open layer has a parent only if the directory of its file was entered. -/
theorem Tracks.closedIn (tracks : cascade.Tracks tree around)
    (entered : ∀ scope, around scope ≠ none → kept (directoryOf scope) = true)
    (followed : cascade.chain scope = .ok chain) :
    ClosedIn tree kept (chain.map (·.scope)) := by
  obtain ⟨first, found, chained, -⟩ := chain_eq_ok_iff.mp followed
  rw [ClosedIn, ← List.map_dropLast]
  intro scope listed isOpen
  obtain ⟨layer, inner, rfl⟩ := List.mem_map.mp listed
  obtain ⟨parent, named⟩ := chained.parent_of_mem_dropLast layer inner
  have member := chained.mem_layers (get?_eq_some found).1 layer (List.dropLast_subset _ inner)
  obtain ⟨file, loaded, -, parents⟩ := exists_of_view (tracks.shown layer member)
  rw [isOpen_eq loaded, Option.isNone_iff_eq_none] at isOpen
  rw [parents, isOpen, Option.none_or] at named
  refine entered layer.scope ?_
  rw [named]
  exact Option.some_ne_none parent

/-- A cascade in which fewer directories were entered has the same layer. -/
theorem Tracks.get?_restrict (tracks : full.Tracks tree around)
    (tracks' : cascade.Tracks tree (restrictTo kept around)) {layer : Layer}
    (member : layer ∈ full.layers) (known : cascade.contains layer.scope = true)
    (inherits : layer.parent ≠ none → isOpen tree layer.scope = true →
      kept (directoryOf layer.scope) = true) : cascade.get? layer.scope = some layer := by
  obtain ⟨layer', found⟩ := contains_iff.mp known
  obtain ⟨member', same⟩ := tracks'.scope_of_get? (tracks.held layer member) found
  obtain ⟨file, loaded, shape, parents⟩ := exists_of_view (tracks.shown layer member)
  obtain ⟨file', loaded', shape', parents'⟩ := exists_of_view (tracks'.shown layer' member')
  rw [same] at loaded' parents'
  cases loaded.symm.trans loaded'
  -- Both show the same file; what lies around it matters only if the layer is open.
  have agree : layer'.parent = layer.parent := by
    rw [parents, parents']
    cases written : file.parent with
    | some parent => rfl
    | none =>
      rw [Option.none_or, Option.none_or]
      cases met : around layer.scope with
      | none => rw [restrictTo, met, ite_self]
      | some outer =>
        have isOpen : isOpen tree layer.scope = true := by rw [isOpen_eq loaded, written]; rfl
        have named : layer.parent ≠ none := by
          rw [parents, written, met]
          exact Option.some_ne_none outer
        rw [restrictTo, if_pos (inherits named isOpen), met]
  rw [found, shape', agree, ← shape]

/-- The chain of a scope stays the same if only such directories were not entered that no open
layer of the chain lies in. -/
theorem Tracks.chain_restrict (spelled : parentsWellSpelled tree = true)
    (tracks : full.Tracks tree around) (settled : cascade.Settled tree (restrictTo kept around))
    (holds : tree.HoldsFile scope)
    (known : cascade.contains scope = true) (followed : full.chain scope = .ok chain)
    (supported : ClosedIn tree kept (chain.map (·.scope))) : cascade.chain scope = .ok chain := by
  obtain ⟨first, found, chained, distinct⟩ := chain_eq_ok_iff.mp followed
  obtain ⟨member, same⟩ := tracks.scope_of_get? holds found
  subst same
  -- Along the chain the layers are the same, and each of them makes sure that the next one is
  -- there, because loading leaves no parent out.
  suffices both : cascade.get? first.scope = some first ∧ cascade.Chained first chain from
    chain_eq_ok_iff.mpr ⟨first, both.1, both.2, distinct⟩
  clear found followed distinct holds
  induction chained with
  | @last layer top =>
    exact ⟨tracks.get?_restrict settled.tracks member known (absurd top), .last top⟩
  | @step layer next parent rest named found chained ih =>
    have nonempty : rest.map (·.scope) ≠ [] := by
      simpa using List.ne_nil_of_mem chained.first_mem
    have inherits : isOpen tree layer.scope = true → kept (directoryOf layer.scope) = true := by
      refine supported layer.scope ?_
      rw [List.map_cons, List.dropLast_cons_of_ne_nil nonempty]
      exact List.mem_cons_self
    have supported' : ClosedIn tree kept (rest.map (·.scope)) := by
      intro scope listed
      refine supported scope ?_
      rw [List.map_cons, List.dropLast_cons_of_ne_nil nonempty]
      exact List.mem_cons_of_mem _ listed
    have here := tracks.get?_restrict settled.tracks member known fun _ => inherits
    have isFile := tracks.isFile_parent spelled member named found
    obtain ⟨member', same'⟩ := get?_eq_some found
    have known' : cascade.contains parent = true :=
      settled.closed layer (get?_eq_some here).1 parent named isFile
    rw [← contains_congr same'] at known'
    obtain ⟨there, further⟩ := ih supported' member' known'
    rw [get?_congr same'] at there
    exact ⟨here, .step named there further⟩

end Cascade

end SuiteRunner.Config
