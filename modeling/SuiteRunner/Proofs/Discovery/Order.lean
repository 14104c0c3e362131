import SuiteRunner.Proofs.Discovery.Walker

/-!
# The order of discovery

A walker gives the tests of a suite in the order of their names below the source root: the
names are compared one after the other, each by its bytes, which are the characters of its
text. So no test is given twice, and
what is in a directory comes between what is in front of it and what is behind it.
-/

namespace SuiteRunner

/-- Whether a path comes before another one: the components are compared one after the other,
each by its bytes. -/
def Path.Precedes (path other : Path) : Prop :=
  path.components.map (·.text) < other.components.map (·.text)

namespace Discovery

open Config Files

variable {setting : Setting} {directory : Directory} {progress : Progress} {depth : Nat}
  {root : Path} {above : List String} {name : String} {names : List String}

/-! ### Where tests lie -/

/-- What lies in a directory under one of some names. -/
def Under (above heads names : List String) : Prop :=
  ∃ head ∈ heads, (above ++ [head]) <+: names

theorem Under.mono {heads heads' : List String} (more : ∀ head ∈ heads, head ∈ heads')
    (under : Under above heads names) : Under above heads' names := by
  obtain ⟨head, member, within⟩ := under
  exact ⟨head, more head member, within⟩

/-- What lies under a name comes before what lies under a later one. -/
theorem Under.lt {heads names' : List String} (first : ∀ head ∈ heads, name < head)
    (under : Under above [name] names) (later : Under above heads names') :
    names < names' := by
  obtain ⟨_, single, more, rfl⟩ := under
  obtain ⟨head, member, more', rfl⟩ := later
  obtain rfl := List.mem_singleton.mp single
  simp only [List.append_assoc]
  exact List.append_left_lt (List.Lex.rel (first head member))

/-! ### Increasing tests -/

/-- Tests in the order of their names, all of them in some region below the root. -/
structure Increasing (root : Path) (region : List String → Prop) (tests : List TestCase) :
    Prop where
  within : ∀ test ∈ tests, ∃ names, region names ∧ IsPlace names ∧ test.LiesAt root names
  ordered : tests.Pairwise (·.relative.Precedes ·.relative)

theorem precedes_intercalate {names' : List String} (valid : IsPlace names)
    (valid' : IsPlace names') (below : names < names') :
    Path.Precedes ⟨"/".intercalate names⟩ ⟨"/".intercalate names'⟩ := by
  have texts : (Path.Component.text ∘ Path.Component.name) = id := rfl
  rw [Path.Precedes, Path.components_intercalate valid, Path.components_intercalate valid',
    List.map_map, List.map_map, texts, List.map_id, List.map_id]
  exact below

namespace Increasing

variable {region region' whole : List String → Prop} {tests tests' : List TestCase}

theorem nil : Increasing root region [] := ⟨List.forall_mem_nil _, List.Pairwise.nil⟩

theorem mono (wider : ∀ names, region names → whole names)
    (increasing : Increasing root region tests) : Increasing root whole tests := by
  refine ⟨fun test member => ?_, increasing.ordered⟩
  obtain ⟨names, inside, valid, lies⟩ := increasing.within test member
  exact ⟨names, wider names inside, valid, lies⟩

theorem append (first : Increasing root region tests) (later : Increasing root region' tests')
    (apart : ∀ names names', region names → region' names' →
      names < names') :
    Increasing root (fun names => region names ∨ region' names) (tests ++ tests') := by
  constructor
  · intro test member
    rcases List.mem_append.mp member with member | member
    · exact (first.mono fun _ => Or.inl).within test member
    · exact (later.mono fun _ => Or.inr).within test member
  · refine List.pairwise_append.mpr ⟨first.ordered, later.ordered, ?_⟩
    intro test member test' member'
    obtain ⟨names, inside, valid, -, relative⟩ := first.within test member
    obtain ⟨names', inside', valid', -, relative'⟩ := later.within test' member'
    rw [relative, relative']
    exact precedes_intercalate valid valid' (apart names names' inside inside')

theorem distinct (increasing : Increasing root region tests) :
    tests.Pairwise fun test later => test.path.same later.path = false := by
  refine increasing.ordered.imp_of_mem ?_
  intro test later member member' precedes
  obtain ⟨names, -, valid, path, relative⟩ := increasing.within test member
  obtain ⟨names', -, valid', path', relative'⟩ := increasing.within later member'
  rw [← Bool.not_eq_true, Path.same_iff, path, path', Path.components_descend _ valid,
    Path.components_descend _ valid']
  intro same
  -- Two spellings of one path would have the same names below the root.
  have names_eq : names = names' := List.map_inj_right (fun _ _ => Path.Component.name.inj)
    |>.mp (List.append_cancel_left same)
  rw [relative, relative', names_eq] at precedes
  exact List.lt_irrefl _ precedes

end Increasing

/-- The tests that a part of a walk finds. -/
def Part.tests (part : Part) : List TestCase := part.1.filterMap Finding.test?

theorem Part.increasing_andThen {region region' : List String → Prop} {first : Part}
    {rest : Progress → Part} (before : Increasing root region first.tests)
    (later : ∀ progress, Increasing root region' (Part.tests (rest progress)))
    (apart : ∀ names names', region names → region' names' →
      names < names') :
    Increasing root (fun names => region names ∨ region' names) (first.andThen rest).tests := by
  rcases first with ⟨findings, error | progress⟩
  · exact before.mono fun _ => Or.inl
  · rw [andThen, tests, List.filterMap_append]
    exact before.append (later progress) apart

/-! ### Walking in order -/

/-- A directory at some names below the root, with its entries in order. -/
structure Directory.Sorted (directory : Directory) (root : Path) (above : List String) : Prop where
  path : directory.path = root.descend above
  valid : IsPlace above
  named : ∀ name ∈ directory.names, IsName name
  increasing : directory.names.Pairwise (· < ·)

theorem openDirectory_sorted {tree : FileTree} {path scope : Path} {config : EffectiveConfig}
    {cascade cascade' : Cascade} {inner : Directory} (valid : tree.Named)
    (opened : openDirectory tree path scope config cascade = .ok (inner, cascade'))
    (lies : path = root.descend above) (place : IsPlace above) : inner.Sorted root above := by
  obtain ⟨scope', config', names, -, listed, rfl⟩ := openDirectory_eq_ok_iff.mp opened
  exact ⟨lies, place, isName_of_mem_visibleNames (valid.isName_of_mem_names listed),
    increasing_visibleNames names⟩

section Visits

variable (valid : setting.tree.Named) (sorted : directory.Sorted setting.root above)
include sorted

theorem Directory.Sorted.child (named : IsName name) :
    IsPlace (above ++ [name]) ∧
      directory.path.child name = setting.root.descend (above ++ [name]) := by
  refine ⟨isPlace_append sorted.valid named, ?_⟩
  rw [Path.descend_concat, sorted.path]

include valid

theorem visit_opened_sorted (named : IsName name) {inner : Directory} {after : Progress}
    (visited : setting.visit directory name progress = .opened inner after) :
    inner.Sorted setting.root (above ++ [name]) := by
  obtain ⟨place, path⟩ := sorted.child named
  obtain ⟨relative, cascade, -, -, -, -, -, opened, -⟩ := visit_opened visited
  exact openDirectory_sorted valid opened path place

theorem walkEntry_increasing (named : IsName name) {enter : Directory → Progress → Part}
    (enters : ∀ inner progress, inner.Sorted setting.root (above ++ [name]) →
      Increasing setting.root ((above ++ [name]) <+: ·) (enter inner progress).tests) :
    Increasing setting.root (Under above [name])
      (walkEntry setting enter directory name progress).tests := by
  have under : ∀ names, (above ++ [name]) <+: names → Under above [name] names :=
    fun names within => ⟨name, List.mem_singleton_self name, within⟩
  rw [walkEntry]
  split
  next => exact .nil
  next test visited =>
    obtain ⟨lies, -⟩ := visit_found_liesAt sorted.path sorted.valid named visited
    refine ⟨List.forall_mem_singleton.mpr ?_, List.pairwise_singleton _ _⟩
    exact ⟨_, under _ (List.prefix_refl _), (sorted.child named).1, lies⟩
  next => exact .nil
  next inner after visited =>
    exact (enters inner after (visit_opened_sorted valid sorted named visited)).mono under

/-- What is found under a name comes before what is found under the later names. -/
theorem walkEntries_increasing {enter : Directory → Progress → Part}
    (enters : ∀ name, IsName name → ∀ inner progress,
      inner.Sorted setting.root (above ++ [name]) →
        Increasing setting.root ((above ++ [name]) <+: ·) (enter inner progress).tests)
    (named : ∀ name ∈ names, IsName name) (increasing : names.Pairwise (· < ·)) :
    Increasing setting.root (Under above names)
      (Part.tests (walkEntries setting enter directory names progress)) := by
  induction names generalizing progress with
  | nil => exact .nil
  | cons name names ih =>
    -- The names behind this one are larger, and so is all that is found under them.
    obtain ⟨first, increasing⟩ := List.pairwise_cons.mp increasing
    have named' := named name List.mem_cons_self
    have rest : ∀ progress, Increasing setting.root (Under above names)
        (Part.tests (walkEntries setting enter directory names progress)) := fun _ =>
      ih (fun other member => named other (List.mem_cons_of_mem _ member)) increasing
    rw [walkEntries_cons]
    refine (Part.increasing_andThen (walkEntry_increasing valid sorted named' (enters name named'))
      rest fun _ _ => Under.lt first).mono ?_
    rintro names' (under | under)
    · exact under.mono fun head member => List.mem_singleton.mp member ▸ List.mem_cons_self
    · exact under.mono fun head member => List.mem_cons_of_mem _ member

end Visits

theorem walkDirectory_increasing (setting : Setting) (valid : setting.tree.Named)
    (sorted : directory.Sorted setting.root above) :
    Increasing setting.root (above <+: ·)
      (Part.tests (walkDirectory setting depth directory progress)) := by
  induction depth generalizing directory progress above with
  | zero => exact .nil
  | succ depth ih =>
    refine (walkEntries_increasing valid sorted (fun name _ inner progress fit => ih fit)
      sorted.named sorted.increasing).mono ?_
    rintro names ⟨head, -, within⟩
    exact (List.prefix_append _ _).trans within

/-! ### Answers in order -/

variable {tree : FileTree} {cascade : Cascade} {entry : Path} {selection : Selection}

theorem start_sorted (valid : tree.Named)
    (started : Discovery.start tree cascade entry = .ok (directory, progress)) :
    directory.Sorted directory.path [] := by
  obtain ⟨config, after, -, -, opened, -⟩ := start_eq_ok started
  exact openDirectory_sorted valid opened rfl (List.forall_mem_nil _)

/-- A walker answers with tests in strictly increasing order, then with at most one error, and
from then on with nothing. -/
theorem Walker.answers_increase (valid : tree.Named) {walker : Walker}
    (started : Walker.start tree cascade entry selection = .ok walker) :
    ∃ walk, Discovery.walk tree cascade entry selection = .ok walk ∧
      (∀ calls, walker.answer calls =
        (walk.tests.map .ok ++ walk.problem.toList.map .error)[calls]?) ∧
      walk.tests.Pairwise (·.relative.Precedes ·.relative) ∧
      walk.tests.Pairwise fun test later => test.path.same later.path = false := by
  obtain ⟨directory, progress, walk, opened, walked, findings, answers⟩ := answer_of_start started
  have increasing : Increasing directory.path ([] <+: ·) walk.tests := by
    rw [Walk.tests, findings]
    exact walkDirectory_increasing { tree, root := directory.path, selection } valid
      (start_sorted valid opened)
  exact ⟨walk, walked, answers, increasing.ordered, increasing.distinct⟩

/-- A suite with a link back to its root, a local layer, and one that is malformed. -/
def windingTree : FileTree where
  entries :=
    [ (["litmus.toml"], .file "suffixes = [\".t\"]\n".toUTF8 false),
      (["a.t"], .file "RUN: true\n".toUTF8 false),
      (["a"], .directory),
      (["a", "litmus.local.toml"], .file .empty false),
      (["a", "b.t"], .file "RUN: true\n".toUTF8 false),
      (["a", "round"], .link "/"),
      (["z"], .directory),
      (["z", "litmus.local.toml"], .file "suffixes = 1\n".toUTF8 false) ]

def windingEntry : Path := ⟨"/litmus.toml"⟩

def windingCascade : Cascade := (({} : Cascade).load windingTree windingEntry).1

/-- What is in `a` comes before `a.t`, and the malformed layer ends the walk. -/
theorem winding_answers :
    ∃ walker walk, Walker.start windingTree windingCascade windingEntry {} = .ok walker ∧
      Discovery.walk windingTree windingCascade windingEntry {} = .ok walk ∧
      walk.tests.map (·.path) = [⟨"/a/b.t"⟩, ⟨"/a.t"⟩] ∧ walk.problem.isSome = true ∧
      (∀ calls, walker.answer calls =
        (walk.tests.map .ok ++ walk.problem.toList.map .error)[calls]?) ∧
      walk.tests.Pairwise (·.relative.Precedes ·.relative) := by
  have starts : (Walker.start windingTree windingCascade windingEntry {}).toOption.map
      (fun _ => ()) = some () := by decide +kernel
  have finds : (Discovery.walk windingTree windingCascade windingEntry {}).toOption.map
      (fun walk => (walk.tests.map (·.path), walk.problem.isSome)) =
        some ([⟨"/a/b.t"⟩, ⟨"/a.t"⟩], true) := by decide +kernel
  obtain ⟨walker, started, -⟩ := exists_eq_ok starts
  obtain ⟨walk, walked, found⟩ := exists_eq_ok finds
  obtain ⟨walk', walked', answers, increasing, -⟩ :=
    Walker.answers_increase (by decide +kernel) started
  cases walked.symm.trans walked'
  obtain ⟨paths, failed⟩ := Prod.mk.inj found
  exact ⟨walker, walk, started, walked, paths, failed, answers, increasing⟩

end Discovery

end SuiteRunner
