import SuiteRunner.Discovery.Walker
import SuiteRunner.Proofs.Discovery.Walk

/-!
# A walker gives what a walk finds

What a walker has still to answer is what is left of the walk through the directories it is
in, and every call takes the first answer away. The depth down to which a walk goes does not
matter as long as it is larger than the number of directories ahead, because each directory
that is entered leaves fewer of them.
-/

namespace SuiteRunner.Discovery

open Config Files

variable {setting : Setting} {directory : Directory} {progress : Progress} {depth : Nat}

/-! ### Depth -/

theorem Part.andThen_congr {first : Part} {rest rest' : Progress → Part}
    (same : ∀ progress, first.2 = .ok progress → rest progress = rest' progress) :
    first.andThen rest = first.andThen rest' := by
  rcases first with ⟨findings, error | progress⟩
  · rfl
  · rw [Part.andThen, Part.andThen, same progress rfl]

theorem visit_ahead (bound : Nat) {name : String} (progress : Progress)
    (few : (progress.ahead setting.tree).length ≤ bound) :
    (setting.visit directory name progress).Keeps
      (fun after => (after.ahead setting.tree).length ≤ bound) (fun _ => True) fun _ => True := by
  cases visited : setting.visit directory name progress with
  | opened inner after =>
    exact ⟨trivial, trivial, Nat.le_of_lt (Nat.lt_of_lt_of_le (ahead_lt_of_opened visited) few)⟩
  | _ => trivial

/-- A walk enters directories and leaves none. -/
theorem walkDirectory_ahead (bound : Nat) (initial : (progress.ahead setting.tree).length ≤ bound) :
    Part.Keeps (fun after => (after.ahead setting.tree).length ≤ bound) (fun _ => True)
      (walkDirectory setting depth directory progress) :=
  walkDirectory_keeps _ (fun _ => True) _ (fun _ _ _ _ => visit_ahead bound) trivial initial

theorem walkEntry_ahead (bound : Nat) {name : String}
    (initial : (progress.ahead setting.tree).length ≤ bound) :
    (walkEntry setting (walkDirectory setting depth) directory name progress).Keeps
      (fun after => (after.ahead setting.tree).length ≤ bound) (fun _ => True) :=
  walkEntry_keeps (visit_ahead bound) (fun _ _ _ => walkDirectory_ahead bound) initial

/-- One more level makes no difference to the entries of a directory, if it makes none to the
directories in it. -/
theorem walkEntries_stable
    (stable : ∀ inner after, (after.ahead setting.tree).length < depth →
      walkDirectory setting (depth + 1) inner after = walkDirectory setting depth inner after)
    {names : List String} (enough : (progress.ahead setting.tree).length ≤ depth) :
    walkEntries setting (walkDirectory setting (depth + 1)) directory names progress =
      walkEntries setting (walkDirectory setting depth) directory names progress := by
  induction names generalizing progress with
  | nil => rfl
  | cons name names ih =>
    have first : walkEntry setting (walkDirectory setting (depth + 1)) directory name progress =
        walkEntry setting (walkDirectory setting depth) directory name progress := by
      simp only [walkEntry]
      cases visited : setting.visit directory name progress with
      | opened inner after =>
        exact Part.andThen_congr fun _ same => by
          cases same
          exact stable inner after (Nat.lt_of_lt_of_le (ahead_lt_of_opened visited) enough)
      | _ => rfl
    rw [walkEntries_cons, walkEntries_cons, first]
    exact Part.andThen_congr fun after ended => ih ((walkEntry_ahead depth enough).2 after ended)

theorem walkDirectory_stable (enough : (progress.ahead setting.tree).length < depth) :
    walkDirectory setting (depth + 1) directory progress =
      walkDirectory setting depth directory progress := by
  induction depth generalizing directory progress with
  | zero => exact absurd enough (Nat.not_lt_zero _)
  | succ depth ih =>
    exact walkEntries_stable (fun inner after => ih) (Nat.le_of_lt_succ enough)

/-- Deep enough, all directories are walked through alike. -/
theorem walkDirectory_unroll (enough : (progress.ahead setting.tree).length < depth) :
    walkDirectory setting depth directory progress =
      walkEntries setting (walkDirectory setting depth) directory directory.names progress :=
  (walkDirectory_stable enough).symm

theorem ahead_lt (progress : Progress) (tree : FileTree) :
    (progress.ahead tree).length < tree.entries.length + 2 := by
  have short : (progress.ahead tree).length ≤ ([] :: tree.entries.map Prod.fst).length :=
    List.length_filter_le _ _
  rw [List.length_cons, List.length_map] at short
  exact Nat.lt_succ_of_le short

/-! ### What is left -/

theorem Part.andThen_nil (progress : Progress) (rest : Progress → Part) :
    Part.andThen ([], .ok progress) rest = rest progress := rfl

theorem Part.andThen_assoc (first : Part) (second third : Progress → Part) :
    (first.andThen second).andThen third =
      first.andThen fun progress => (second progress).andThen third := by
  rcases first with ⟨findings, error | progress⟩
  · rfl
  · simp only [Part.andThen]
    rcases second progress with ⟨more, error | after⟩
    · rfl
    · simp only [List.append_assoc]

theorem Part.andThen_done (first : Part) :
    first.andThen (fun progress => ([], .ok progress)) = first := by
  rcases first with ⟨findings, error | progress⟩
  · rfl
  · simp only [Part.andThen, List.append_nil]

/-- What is left of a walk in some directories, the innermost first. -/
def walkFrames (setting : Setting) (depth : Nat) : List Frame → Progress → Part
  | [], progress => ([], .ok progress)
  | frame :: stack, progress =>
    Part.andThen
      (walkEntries setting (walkDirectory setting depth) frame.directory frame.names progress)
      (walkFrames setting depth stack)

theorem walkFrames_cons_cons {name : String} {names : List String} {stack : List Frame} :
    walkFrames setting depth (⟨directory, name :: names⟩ :: stack) progress =
      (walkEntry setting (walkDirectory setting depth) directory name progress).andThen
        (walkFrames setting depth (⟨directory, names⟩ :: stack)) := by
  rw [walkFrames, walkEntries_cons, Part.andThen_assoc]
  rfl

/-- The tests that a part of a walk finds, and the error that ends it. -/
def Part.answers (part : Part) : List (Except Config.Error TestCase) :=
  (part.1.filterMap Finding.test?).map .ok ++
    match part.2 with
    | .ok _ => []
    | .error error => [.error error]

/-- What a walker has still to answer. -/
def Walker.remaining (walker : Walker) (depth : Nat) : List (Except Config.Error TestCase) :=
  (walkFrames walker.setting depth walker.stack walker.progress).answers

section Calls

variable {test : TestCase} {error : Config.Error} {inner : Directory} {after : Progress}
  {name : String} {names : List String} {stack : List Frame}

theorem Walker.remaining_skipped
    (visited : setting.visit directory name progress = .skipped) :
    Walker.remaining ⟨setting, ⟨directory, name :: names⟩ :: stack, progress⟩ depth =
      Walker.remaining ⟨setting, ⟨directory, names⟩ :: stack, progress⟩ depth := by
  simp only [Walker.remaining]
  rw [walkFrames_cons_cons, walkEntry, visited, Part.andThen_nil]

theorem Walker.remaining_found
    (visited : setting.visit directory name progress = .found test) :
    Walker.remaining ⟨setting, ⟨directory, name :: names⟩ :: stack, progress⟩ depth =
      .ok test :: Walker.remaining ⟨setting, ⟨directory, names⟩ :: stack, progress⟩ depth := by
  simp only [Walker.remaining]
  rw [walkFrames_cons_cons, walkEntry, visited]
  rfl

theorem Walker.remaining_failed
    (visited : setting.visit directory name progress = .failed error) :
    Walker.remaining ⟨setting, ⟨directory, name :: names⟩ :: stack, progress⟩ depth =
      [.error error] := by
  simp only [Walker.remaining]
  rw [walkFrames_cons_cons, walkEntry, visited]
  rfl

/-- Opening a directory is no answer: what is in it comes next, and then the other names. -/
theorem Walker.remaining_opened
    (visited : setting.visit directory name progress = .opened inner after)
    (enough : (after.ahead setting.tree).length < depth) :
    Walker.remaining ⟨setting, ⟨directory, name :: names⟩ :: stack, progress⟩ depth =
      Walker.remaining ⟨setting, ⟨inner, inner.names⟩ :: ⟨directory, names⟩ :: stack, after⟩
        depth := by
  simp only [Walker.remaining]
  rw [walkFrames_cons_cons, walkEntry, visited, walkFrames]
  dsimp only
  rw [← walkDirectory_unroll enough, Part.andThen_assoc]
  rfl

end Calls

/-- A call gives the first of the answers that are left, and leaves the others. -/
theorem Walker.next_remaining (walker : Walker)
    (enough : (walker.progress.ahead walker.setting.tree).length < depth) :
    (walker.next.2.progress.ahead walker.next.2.setting.tree).length < depth ∧
      walker.next.1 = (walker.remaining depth).head? ∧
      walker.next.2.remaining depth = (walker.remaining depth).tail := by
  -- Steps that give no answer leave what is left as it is, and the call goes on from there.
  fun_induction Walker.next walker with
  | case1 setting progress => exact ⟨enough, rfl, rfl⟩
  | case2 setting directory stack progress ih => exact ih enough
  | case3 setting directory name names stack progress visited ih =>
    rw [remaining_skipped visited]
    exact ih enough
  | case4 setting directory name names stack progress test visited =>
    rw [remaining_found visited]
    exact ⟨enough, rfl, rfl⟩
  | case5 setting directory name names stack progress error visited =>
    rw [remaining_failed visited]
    exact ⟨enough, rfl, rfl⟩
  | case6 setting directory name names stack progress inner after visited fewer ih =>
    have enough' := Nat.lt_trans fewer enough
    rw [remaining_opened visited enough']
    exact ih enough'

theorem Walker.after_remaining (walker : Walker) (calls : Nat)
    (enough : (walker.progress.ahead walker.setting.tree).length < depth) :
    ((walker.after calls).progress.ahead (walker.after calls).setting.tree).length < depth ∧
      (walker.after calls).remaining depth = (walker.remaining depth).drop calls := by
  induction calls with
  | zero => exact ⟨enough, rfl⟩
  | succ calls ih =>
    obtain ⟨enough', left⟩ := ih
    obtain ⟨enough'', -, left'⟩ := (walker.after calls).next_remaining enough'
    refine ⟨enough'', ?_⟩
    rw [after, left', left, List.tail_drop]

theorem Walker.answer_eq_getElem? (walker : Walker) (calls : Nat)
    (enough : (walker.progress.ahead walker.setting.tree).length < depth) :
    walker.answer calls = (walker.remaining depth)[calls]? := by
  obtain ⟨enough', left⟩ := walker.after_remaining calls enough
  rw [answer, ((walker.after calls).next_remaining enough').2.1, left, List.head?_drop]

/-! ### From the source root -/

variable {tree : FileTree} {cascade : Cascade} {entry : Path}

/-- What a walk and a walker start from. -/
theorem Walker.start_eq_ok {selection : Selection} {walker : Walker}
    (started : Walker.start tree cascade entry selection = .ok walker) :
    ∃ directory progress, Discovery.start tree cascade entry = .ok (directory, progress) ∧
      walker = ⟨{ tree, root := directory.path, selection }, [⟨directory, directory.names⟩],
        progress⟩ := by
  obtain ⟨⟨directory, progress⟩, opened, started⟩ := bind_eq_ok started
  cases started
  exact ⟨directory, progress, opened, rfl⟩

/-- A walk has the answers of its one part. -/
theorem Part.answers_of_walk {part : Part} {walk : Walk} (findings : walk.findings = part.1)
    (problem : ∀ error, walk.problem = some error ↔ part.2 = .error error) :
    part.answers = walk.tests.map .ok ++ walk.problem.toList.map .error := by
  rcases part with ⟨found, error | after⟩
  · rw [answers, Walk.tests, findings, (problem error).mpr rfl]
    rfl
  · have none : walk.problem = none := by
      rw [Option.eq_none_iff_forall_ne_some]
      intro error failed
      cases (problem error).mp failed
    rw [answers, Walk.tests, findings, none]
    rfl

/-- A walker gives the tests that the walk finds, the error that ends it, and nothing more. -/
theorem Walker.answer_of_start {selection : Selection} {walker : Walker}
    (started : Walker.start tree cascade entry selection = .ok walker) :
    ∃ directory progress walk, Discovery.start tree cascade entry = .ok (directory, progress) ∧
      Discovery.walk tree cascade entry selection = .ok walk ∧
      walk.findings = (walkBelow tree selection directory progress).1 ∧
      ∀ calls, walker.answer calls =
        (walk.tests.map .ok ++ walk.problem.toList.map .error)[calls]? := by
  obtain ⟨directory, progress, opened, rfl⟩ := start_eq_ok started
  obtain ⟨walk, walked, findings, problem⟩ := walk_of_start selection opened
  refine ⟨directory, progress, walk, opened, walked, findings, fun calls => ?_⟩
  -- The walker begins with the entries of the source root, which make up the walk below it.
  have enough := ahead_lt progress tree
  have whole : Walker.remaining ⟨{ tree, root := directory.path, selection },
      [⟨directory, directory.names⟩], progress⟩ (tree.entries.length + 2) =
      Part.answers (walkBelow tree selection directory progress) := by
    rw [walkBelow, walkDirectory_unroll enough]
    exact congrArg Part.answers (Part.andThen_done _)
  rw [answer_eq_getElem? _ calls enough, whole, Part.answers_of_walk findings problem]

end SuiteRunner.Discovery
