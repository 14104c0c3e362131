import Mathlib.Data.List.Perm.Subperm
import Mathlib.Logic.Function.Iterate
import SuiteRunner.Proofs.Discovery.Stalling
import SuiteRunner.Proofs.Discovery.Walker
import SuiteRunner.Proofs.Files.Standing

/-!
# When a walk ends

A walker works in turns: in each it looks at one name or leaves one directory. There is a
directory to enter only as long as some directory has not been entered, whatever links lead to
it, so every turn leaves less to do than there was, and the walker takes no more turns than the
size of the tree allows. All the directories that it enters on its way are different ones. But a
turn need not end: the walker stalls at a directory whose local layer is loaded without an end, and
this is all that can keep it from the end of its walk.
-/

namespace SuiteRunner.Discovery

open Config Files

/-! ### Turns -/

/-- What a walker does in one turn. -/
inductive Turn where
  | ended
  | left
  | looked (visit : Visit)

namespace Turn

/-- What a call answers if it ends with this turn. -/
def answer? : Turn → Option (Option (Except Config.Error TestCase))
  | ended => some none
  | looked (.found test) => some (some (.ok test))
  | looked (.failed error) => some (some (.error error))
  | _ => none

/-- The path of the directory that is entered in this turn. -/
def entered? : Turn → Option Path
  | looked (.opened inner _) => some inner.path
  | _ => none

end Turn

namespace Walker

def turn (walker : Walker) : Turn × Walker :=
  match walker with
  | ⟨_, [], _⟩ => (.ended, walker)
  | ⟨setting, ⟨_, []⟩ :: stack, progress⟩ => (.left, ⟨setting, stack, progress⟩)
  | ⟨setting, ⟨directory, name :: names⟩ :: stack, progress⟩ =>
    let visit := setting.visit directory name progress
    (.looked visit,
      match visit with
      | .skipped | .found _ => ⟨setting, ⟨directory, names⟩ :: stack, progress⟩
      | .failed _ => ⟨setting, [], progress⟩
      | .opened inner after =>
        ⟨setting, ⟨inner, inner.names⟩ :: ⟨directory, names⟩ :: stack, after⟩)

/-- The walker after some turns. -/
def afterTurns (walker : Walker) (turns : Nat) : Walker :=
  (fun walker => walker.turn.2)^[turns] walker

/-- The paths of the directories that are entered in the first turns. -/
def entered (walker : Walker) (turns : Nat) : List Path :=
  (List.range turns).filterMap fun before => (walker.afterTurns before).turn.1.entered?

end Walker

/-- What can happen in a turn. -/
inductive Takes : Walker → Turn → Walker → Prop where
  | ended (setting : Setting) (progress : Progress) :
      Takes ⟨setting, [], progress⟩ .ended ⟨setting, [], progress⟩
  | left (setting : Setting) (directory : Directory) (stack : List Frame) (progress : Progress) :
      Takes ⟨setting, ⟨directory, []⟩ :: stack, progress⟩ .left ⟨setting, stack, progress⟩
  | skipped {setting : Setting} {directory : Directory} {name : String} {progress : Progress}
      (names : List String) (stack : List Frame)
      (visited : setting.visit directory name progress = .skipped) :
      Takes ⟨setting, ⟨directory, name :: names⟩ :: stack, progress⟩ (.looked .skipped)
        ⟨setting, ⟨directory, names⟩ :: stack, progress⟩
  | found {setting : Setting} {directory : Directory} {name : String} {progress : Progress}
      {test : TestCase} (names : List String) (stack : List Frame)
      (visited : setting.visit directory name progress = .found test) :
      Takes ⟨setting, ⟨directory, name :: names⟩ :: stack, progress⟩ (.looked (.found test))
        ⟨setting, ⟨directory, names⟩ :: stack, progress⟩
  | failed {setting : Setting} {directory : Directory} {name : String} {progress : Progress}
      {error : Config.Error} (names : List String) (stack : List Frame)
      (visited : setting.visit directory name progress = .failed error) :
      Takes ⟨setting, ⟨directory, name :: names⟩ :: stack, progress⟩ (.looked (.failed error))
        ⟨setting, [], progress⟩
  | opened {setting : Setting} {directory inner : Directory} {name : String}
      {progress after : Progress} (names : List String) (stack : List Frame)
      (visited : setting.visit directory name progress = .opened inner after) :
      Takes ⟨setting, ⟨directory, name :: names⟩ :: stack, progress⟩ (.looked (.opened inner after))
        ⟨setting, ⟨inner, inner.names⟩ :: ⟨directory, names⟩ :: stack, after⟩

theorem Walker.takes_turn (walker : Walker) : Takes walker walker.turn.1 walker.turn.2 := by
  obtain ⟨setting, stack, progress⟩ := walker
  match stack with
  | [] => exact .ended setting progress
  | ⟨directory, []⟩ :: stack => exact .left setting directory stack progress
  | ⟨directory, name :: names⟩ :: stack =>
    simp only [Walker.turn]
    cases visited : setting.visit directory name progress with
    | skipped => exact .skipped names stack visited
    | found test => exact .found names stack visited
    | failed error => exact .failed names stack visited
    | opened inner after => exact .opened names stack visited

/-- What a call makes of the visit to a name. -/
theorem Walker.next_cons (setting : Setting) (directory : Directory) (name : String)
    (names : List String) (stack : List Frame) (progress : Progress) :
    next ⟨setting, ⟨directory, name :: names⟩ :: stack, progress⟩ =
      match setting.visit directory name progress with
      | .skipped => next ⟨setting, ⟨directory, names⟩ :: stack, progress⟩
      | .found test => (some (.ok test), ⟨setting, ⟨directory, names⟩ :: stack, progress⟩)
      | .failed error => (some (.error error), ⟨setting, [], progress⟩)
      | .opened inner after =>
        next ⟨setting, ⟨inner, inner.names⟩ :: ⟨directory, names⟩ :: stack, after⟩ := by
  rw [next]
  split <;> rename_i visited <;> simp only [visited]

namespace Takes

variable {walker after : Walker} {turn : Turn}

/-- A call goes on turn by turn, up to the first turn with an answer. -/
theorem next (takes : Takes walker turn after) :
    walker.next = (turn.answer?.map (·, after)).getD after.next := by
  cases takes with
  | ended => rw [Walker.next]; rfl
  | left => rw [Walker.next]; rfl
  | skipped names stack visited | found names stack visited | failed names stack visited
  | opened names stack visited =>
    rw [Walker.next_cons, visited]
    rfl

theorem setting (takes : Takes walker turn after) : after.setting = walker.setting := by
  cases takes <;> rfl

end Takes

/-! ### Less to do -/

theorem length_visibleNames_le (names : List String) :
    (visibleNames names).length ≤ names.length := by
  have nodup : (visibleNames names).Nodup := (increasing_visibleNames names).imp String.ne_of_lt
  exact (List.subperm_of_subset nodup fun name member => (mem_visibleNames.mp member).1).length_le

/-- No directory has more names than there are entries in the tree. -/
theorem openDirectory_length_le {tree : FileTree} {path scope : Path} {config : EffectiveConfig}
    {cascade cascade' : Cascade} {inner : Directory}
    (opened : openDirectory tree path scope config cascade = .ok (inner, cascade')) :
    inner.names.length ≤ tree.entries.length := by
  obtain ⟨_, _, names, -, listed, rfl⟩ := openDirectory_eq_ok_iff.mp opened
  obtain ⟨place, -, -, rfl⟩ := FileTree.names_eq_ok_iff.mp listed
  exact Nat.le_trans (length_visibleNames_le _) (List.length_filterMap_le _ _)

/-- What there is to do for a walker at most: all that is pending, and for each directory ahead as
many names as there can be in a directory, and the end of it. -/
def Walker.potential (walker : Walker) : Nat :=
  walker.pending +
    (walker.progress.ahead walker.setting.tree).length * (walker.setting.tree.entries.length + 1)

theorem Takes.potential_lt {walker after : Walker} {turn : Turn} (takes : Takes walker turn after)
    (busy : walker.stack ≠ []) : after.potential < walker.potential := by
  -- A turn takes one pending name away, or gives up the stack. Opening a directory adds its names,
  -- but there is one directory less ahead, and that counts for more than all names there are.
  cases takes with
  | ended => exact absurd rfl busy
  | left | skipped | found => simp [Walker.potential, Walker.pending]
  | failed =>
    simp only [Walker.potential, Walker.pending, List.foldr_cons, List.foldr_nil]
    omega
  | @opened setting directory inner name progress after names stack visited =>
    have fewer := ahead_lt_of_opened visited
    obtain ⟨_, _, -, -, -, -, -, opened, -⟩ := visit_opened visited
    have short := openDirectory_length_le opened
    have released := Nat.mul_le_mul_right (setting.tree.entries.length + 1) fewer
    rw [Nat.succ_mul] at released
    simp only [Walker.potential, Walker.pending, List.foldr_cons, List.length_cons]
    omega

/-- With nothing left to do for it, a walker has ended. -/
theorem Walker.stack_of_potential {walker : Walker} (idle : walker.potential = 0) :
    walker.stack = [] := by
  cases shape : walker.stack with
  | nil => rfl
  | cons frame stack => simp [potential, pending, shape] at idle

namespace Walker

theorem afterTurns_succ (walker : Walker) (turns : Nat) :
    walker.afterTurns (turns + 1) = walker.turn.2.afterTurns turns :=
  Function.iterate_succ_apply _ _ _

theorem afterTurns_succ' (walker : Walker) (turns : Nat) :
    walker.afterTurns (turns + 1) = (walker.afterTurns turns).turn.2 :=
  Function.iterate_succ_apply' _ _ _

theorem afterTurns_add (walker : Walker) (turns more : Nat) :
    walker.afterTurns (turns + more) = (walker.afterTurns turns).afterTurns more := by
  rw [Nat.add_comm]
  exact Function.iterate_add_apply _ _ _ _

theorem turn_of_ended {walker : Walker} (ended : walker.stack = []) :
    walker.turn = (.ended, walker) := by
  obtain ⟨setting, stack, progress⟩ := walker
  cases ended
  rfl

theorem afterTurns_of_ended {walker : Walker} (ended : walker.stack = []) (turns : Nat) :
    walker.afterTurns turns = walker := by
  induction turns with
  | zero => rfl
  | succ turns ih => rw [afterTurns_succ', ih, turn_of_ended ended]

theorem afterTurns_ends {walker : Walker} {turns : Nat} (enough : walker.potential ≤ turns) :
    (walker.afterTurns turns).stack = [] := by
  induction turns generalizing walker with
  | zero => exact stack_of_potential (Nat.le_zero.mp enough)
  | succ turns ih =>
    by_cases ended : walker.stack = []
    · rw [afterTurns_of_ended ended, ended]
    · have less := walker.takes_turn.potential_lt ended
      rw [afterTurns_succ]
      exact ih (by omega)

/-! ### Calls -/

/-- A call takes some turns, and the last of them has its answer. -/
theorem exists_turns_next (walker : Walker) :
    ∃ turns, (walker.afterTurns turns).turn.1.answer? = some walker.next.1 ∧
      walker.next.2 = walker.afterTurns (turns + 1) := by
  induction size : walker.potential using Nat.strongRecOn generalizing walker with
  | ind size ih =>
    have takes := walker.takes_turn
    cases answers : walker.turn.1.answer? with
    | some answer =>
      refine ⟨0, ?_, ?_⟩ <;> rw [takes.next, answers]
      · exact answers
      · rfl
    | none =>
      -- Only a turn of a walker that has not ended gives no answer.
      have busy : walker.stack ≠ [] := by
        intro ended
        rw [turn_of_ended ended] at answers
        cases answers
      obtain ⟨turns, answer, reached⟩ := ih _ (size ▸ takes.potential_lt busy) walker.turn.2 rfl
      have later : walker.next = walker.turn.2.next := by
        rw [takes.next, answers]
        rfl
      rw [later]
      exact ⟨turns + 1, answer, reached⟩

theorem exists_turns_after (walker : Walker) (calls : Nat) :
    ∃ turns, calls ≤ turns ∧ walker.after calls = walker.afterTurns turns := by
  induction calls with
  | zero => exact ⟨0, Nat.le_refl 0, rfl⟩
  | succ calls ih =>
    obtain ⟨turns, enough, reached⟩ := ih
    obtain ⟨more, -, further⟩ := (walker.after calls).exists_turns_next
    refine ⟨turns + (more + 1), by omega, ?_⟩
    rw [after, further, reached, ← afterTurns_add]

/-- Every call gives the answer of a turn. -/
theorem exists_turn_of_answer (walker : Walker) (calls : Nat) :
    ∃ turns, (walker.afterTurns turns).turn.1.answer? = some (walker.answer calls) := by
  obtain ⟨turns, -, reached⟩ := walker.exists_turns_after calls
  obtain ⟨more, answer, -⟩ := (walker.after calls).exists_turns_next
  refine ⟨turns + more, ?_⟩
  rw [afterTurns_add, ← reached]
  exact answer

theorem after_succ' (walker : Walker) (calls : Nat) :
    walker.after (calls + 1) = walker.next.2.after calls := by
  induction calls with
  | zero => rfl
  | succ calls ih => rw [after, ih, after]

theorem answer_congr {walker other : Walker} (same : walker.next = other.next) (calls : Nat) :
    walker.answer calls = other.answer calls := by
  cases calls with
  | zero => exact congrArg Prod.fst same
  | succ calls => rw [answer, answer, after_succ', after_succ', same]

theorem answer_of_turn {walker : Walker} {answer : Option (Except Config.Error TestCase)}
    (answers : walker.turn.1.answer? = some answer) : walker.answer 0 = answer := by
  rw [Walker.answer, after, walker.takes_turn.next, answers]
  rfl

/-- The answer of every turn is given by a call. -/
theorem exists_call_of_turn {walker : Walker} {turns : Nat}
    {answer : Option (Except Config.Error TestCase)}
    (answers : (walker.afterTurns turns).turn.1.answer? = some answer) :
    ∃ calls, walker.answer calls = answer := by
  induction turns generalizing walker with
  | zero => exact ⟨0, answer_of_turn answers⟩
  | succ turns ih =>
    rw [afterTurns_succ] at answers
    obtain ⟨calls, given⟩ := ih answers
    have next := walker.takes_turn.next
    cases first : walker.turn.1.answer? with
    -- The call that takes this turn goes on with the others.
    | none =>
      rw [first] at next
      exact ⟨calls, (answer_congr next calls).trans given⟩
    | some _ =>
      refine ⟨calls + 1, ?_⟩
      rw [Walker.answer, after_succ', next, first]
      exact given

/-- All calls together take no more turns than there are up to the end. -/
theorem after_within {walker : Walker} {limit : Nat} (ended : (walker.afterTurns limit).stack = [])
    (calls : Nat) :
    (∃ turns, turns ≤ limit ∧ walker.after calls = walker.afterTurns turns) ∧
      (limit ≤ calls → walker.answer calls = none) := by
  obtain ⟨turns, enough, reached⟩ := walker.exists_turns_after calls
  have beyond : limit ≤ turns → walker.after calls = walker.afterTurns limit := by
    intro beyond
    rw [reached, ← Nat.add_sub_of_le beyond, afterTurns_add, afterTurns_of_ended ended]
  constructor
  · rcases Nat.le_total turns limit with within | many
    · exact ⟨turns, within, reached⟩
    · exact ⟨limit, Nat.le_refl limit, beyond many⟩
  · intro many
    rw [answer, beyond (Nat.le_trans many enough), (takes_turn _).next, turn_of_ended ended]
    rfl

/-! ### Calls that never return -/

/-- In the next turn the walker comes to a directory that is never opened. -/
def Stalls (walker : Walker) : Prop :=
  ∃ directory name names stack, walker.stack = ⟨directory, name :: names⟩ :: stack ∧
    walker.setting.StallsAt directory name walker.progress

/-- A call that comes first of all to what fails answers that. -/
theorem answer_of_failed {setting : Setting} {directory : Directory} {name : String}
    {names : List String} {stack : List Frame} {progress : Progress} {error : Config.Error}
    (failed : setting.visit directory name progress = .failed error) :
    answer ⟨setting, ⟨directory, name :: names⟩ :: stack, progress⟩ 0 = some (.error error) := by
  rw [answer, after, next_cons, failed]

theorem stalls_iff {walker : Walker} :
    walker.Stalls ↔ ∃ scope, walker.turn.1.answer? = some (some (.error (.endless scope))) := by
  have takes := walker.takes_turn
  unfold Stalls
  constructor
  · rintro ⟨directory, name, names, stack, top, stalls⟩
    obtain ⟨scope, visited⟩ := visit_endless_iff.mpr stalls
    obtain ⟨setting, frames, progress⟩ := walker
    cases top
    refine ⟨scope, ?_⟩
    rw [turn]
    dsimp only at visited ⊢
    rw [visited]
    rfl
  · rintro ⟨scope, answers⟩
    generalize walker.turn = result at takes answers
    obtain ⟨turn, after⟩ := result
    cases takes with
    | failed names stack visited =>
      cases answers
      exact ⟨_, _, names, stack, rfl, visit_endless_iff.mp ⟨scope, visited⟩⟩
    | _ => cases answers

/-- So many calls have all returned, and the next one has nothing left to answer. -/
def EndsAfter (walker : Walker) (calls : Nat) : Prop :=
  (∀ earlier < calls, ∀ scope, walker.answer earlier ≠ some (.error (.endless scope))) ∧
    walker.answer calls = none

/-- A call comes to no end if and only if the walker stalls in one of its turns. -/
theorem exists_answer_endless_iff {walker : Walker} :
    (∃ calls scope, walker.answer calls = some (.error (.endless scope))) ↔
      ∃ turns, (walker.afterTurns turns).Stalls := by
  simp only [stalls_iff]
  constructor
  · rintro ⟨calls, scope, answer⟩
    obtain ⟨turns, answers⟩ := walker.exists_turn_of_answer calls
    exact ⟨turns, scope, answer ▸ answers⟩
  · rintro ⟨turns, scope, answers⟩
    obtain ⟨calls, answer⟩ := exists_call_of_turn answers
    exact ⟨calls, scope, answer⟩

end Walker

/-! ### Different directories -/

/-- No path is there twice, however it is spelled. -/
def Apart (paths : List Path) : Prop := paths.Pairwise fun path other => path.same other = false

theorem apart_reverse {paths : List Path} : Apart paths.reverse ↔ Apart paths := by
  have comm (path other : Path) : path.same other = other.same path := BEq.comm
  simp only [Apart, List.pairwise_reverse, comm]

namespace Takes

variable {walker after : Walker} {turn : Turn}

/-- A walker remembers the identities of the directories that it enters. -/
theorem visited (takes : Takes walker turn after) :
    after.progress.visited =
      (turn.entered?.map walker.setting.tree.key).toList ++ walker.progress.visited := by
  cases takes with
  | opened names stack visited =>
    obtain ⟨_, cascade, -, -, -, -, -, opened, rfl⟩ := visit_opened visited
    have path := openDirectory_path opened
    simp [Turn.entered?, path]
  | _ => rfl

/-- A directory is entered if it has none of the identities that are remembered. -/
theorem apart (takes : Takes walker turn after) (apart : Apart walker.progress.visited) :
    Apart after.progress.visited := by
  cases takes with
  | opened names stack visited =>
    obtain ⟨_, cascade, -, -, -, -, unmet, -, rfl⟩ := visit_opened visited
    exact List.pairwise_cons.mpr ⟨by simpa using unmet, apart⟩
  | _ => exact apart

theorem isDirectory (takes : Takes walker turn after) {path : Path}
    (entered : turn.entered? = some path) : walker.setting.tree.isDirectory path = true := by
  cases takes with
  | opened names stack visited =>
    obtain ⟨_, cascade, -, isDirectory, -, -, -, opened, -⟩ := visit_opened visited
    cases entered
    rwa [openDirectory_path opened]
  | _ => cases entered

end Takes

namespace Walker

theorem setting_afterTurns (walker : Walker) (turns : Nat) :
    (walker.afterTurns turns).setting = walker.setting := by
  induction turns with
  | zero => rfl
  | succ turns ih => rw [afterTurns_succ', (takes_turn _).setting, ih]

theorem apart_afterTurns {walker : Walker} (apart : Apart walker.progress.visited) (turns : Nat) :
    Apart (walker.afterTurns turns).progress.visited := by
  induction turns with
  | zero => exact apart
  | succ turns ih =>
    rw [afterTurns_succ']
    exact (takes_turn _).apart ih

theorem visited_afterTurns (walker : Walker) (turns : Nat) :
    (walker.afterTurns turns).progress.visited =
      ((walker.entered turns).map walker.setting.tree.key).reverse ++ walker.progress.visited := by
  induction turns with
  | zero => rfl
  | succ turns ih =>
    rw [afterTurns_succ', (takes_turn _).visited, setting_afterTurns, ih, entered, entered,
      List.range_succ, List.filterMap_append]
    cases enters : (walker.afterTurns turns).turn.1.entered? with
    | none => simp [enters]
    | some path => simp [enters]

/-- A walker that has entered one directory never enters one with the same identity. -/
theorem apart_entered {walker : Walker} {root : Path} (first : walker.progress.visited = [root])
    (turns : Nat) : Apart (root :: (walker.entered turns).map walker.setting.tree.key) := by
  have apart : Apart walker.progress.visited := by
    rw [first]
    exact List.pairwise_singleton _ _
  rw [← apart_reverse, List.reverse_cons, ← first, ← visited_afterTurns]
  exact apart_afterTurns apart turns

theorem isDirectory_of_mem_entered {walker : Walker} {turns : Nat} {path : Path}
    (member : path ∈ walker.entered turns) : walker.setting.tree.isDirectory path = true := by
  obtain ⟨before, -, entered⟩ := List.mem_filterMap.mp member
  rw [← walker.setting_afterTurns before]
  exact (takes_turn _).isDirectory entered

end Walker

/-! ### From the source root -/

/-- The number of turns that no walk through a tree goes beyond. -/
def turnLimit (tree : FileTree) : Nat := (tree.entries.length + 1) * (tree.entries.length + 2)

variable {tree : FileTree} {cascade : Cascade} {entry : Path} {selection : Selection}

theorem Walker.start_potential_le {walker : Walker}
    (started : Walker.start tree cascade entry selection = .ok walker) :
    walker.potential ≤ turnLimit tree := by
  obtain ⟨directory, progress, begun, rfl⟩ := start_eq_ok started
  obtain ⟨config, after, -, -, opened, -⟩ := Discovery.start_eq_ok begun
  have short := openDirectory_length_le opened
  have few := Nat.mul_le_mul_right (tree.entries.length + 1)
    (Nat.le_of_lt_succ (ahead_lt progress tree))
  simp only [potential, pending, List.foldr_cons, List.foldr_nil, turnLimit, Nat.mul_succ] at *
  omega

theorem canonical?_of_isDirectory {path : Path} (isDirectory : tree.isDirectory path = true) :
    tree.canonical? path = some (tree.key path) := by
  obtain ⟨place, located, -⟩ :=
    FileTree.find_eq_ok_iff.mp (FileTree.isDirectory_iff.mp isDirectory)
  simp only [FileTree.key, FileTree.canonical?, located, Option.getD_some]

/-- A walker begins with the source root, which it enters by its identity. -/
theorem Walker.start_root {walker : Walker}
    (started : Walker.start tree cascade entry selection = .ok walker) :
    ∃ config, cascade.resolve entry = .ok config ∧ walker.setting.tree = tree ∧
      walker.setting.root = tree.key config.sourceRoot ∧
      walker.progress.visited = [walker.setting.root] ∧
      tree.isDirectory walker.setting.root = true := by
  obtain ⟨directory, progress, begun, rfl⟩ := start_eq_ok started
  obtain ⟨config, after, resolved, root, opened, rfl⟩ := Discovery.start_eq_ok begun
  obtain ⟨_, _, names, -, listed, -⟩ := openDirectory_eq_ok_iff.mp opened
  exact ⟨config, resolved, rfl, root, rfl, FileTree.isDirectory_of_names listed⟩

/-- However links lead through a tree, a walker takes no more turns than the size of the tree
allows, in all its calls together, and the directories that it enters have different identities. In
a tree with proper names, in a directory of which it is started, and from a source root that leads
somewhere, these are their canonical paths. -/
structure Walker.Bounded (walker : Walker) (tree : FileTree) (sourceRoot : Path) : Prop where
  turns : (walker.afterTurns (turnLimit tree)).stack = []
  calls : ∀ calls, ∃ turns, turns ≤ turnLimit tree ∧ walker.after calls = walker.afterTurns turns
  silent : ∀ calls, turnLimit tree ≤ calls → walker.answer calls = none
  apart : ∀ turns, Apart ((sourceRoot :: walker.entered turns).map tree.key)
  canonical : tree.Named → tree.Inside tree.workingDirectory →
    (tree.canonical? sourceRoot).isSome = true → ∀ turns, ∃ canonical, Apart canonical ∧
      (walker.setting.root :: walker.entered turns).map tree.canonical? = canonical.map some

theorem Walker.start_bounded {walker : Walker}
    (started : Walker.start tree cascade entry selection = .ok walker) :
    ∃ config, cascade.resolve entry = .ok config ∧ walker.Bounded tree config.sourceRoot := by
  have ended := afterTurns_ends (start_potential_le started)
  obtain ⟨config, resolved, rfl, root, first, isDirectory⟩ := start_root started
  have apart (turns : Nat) := apart_entered first turns
  -- The root has been resolved, so its key and its canonical path are the same.
  simp only [root, ← List.map_cons] at apart
  refine ⟨config, resolved, ended, fun calls => (after_within ended calls).1,
    fun calls => (after_within ended calls).2, apart, fun named inside leads turns => ?_⟩
  refine ⟨_, apart turns, ?_⟩
  obtain ⟨canonical, found⟩ := Option.isSome_iff_exists.mp leads
  have key : walker.setting.tree.key config.sourceRoot = canonical := by
    rw [FileTree.key, found, Option.getD_some]
  rw [root, key] at isDirectory
  rw [List.map_cons, List.map_cons, List.map_cons, root, key,
    inside.canonical?_canonical named found isDirectory, List.map_map]
  refine congrArg _ (List.map_congr_left fun path member => ?_)
  exact canonical?_of_isDirectory (isDirectory_of_mem_entered member)

/-- A walker that is started ends if and only if it stalls in none of its turns. -/
theorem Walker.exists_endsAfter_iff {walker : Walker}
    (started : Walker.start tree cascade entry selection = .ok walker) :
    (∃ calls, walker.EndsAfter calls) ↔ ∀ turns, ¬ (walker.afterTurns turns).Stalls := by
  rw [← not_exists, ← exists_answer_endless_iff]
  constructor
  · rintro ⟨calls, returned, nothing⟩ ⟨stalled, scope, answer⟩
    rcases Nat.lt_or_ge stalled calls with before | behind
    · exact returned stalled before scope answer
    -- Behind the last answer there is none, so nothing can be endless there.
    · obtain ⟨-, -, walk, -, -, -, answers⟩ := answer_of_start started
      rw [answers, List.getElem?_eq_none_iff] at nothing
      rw [answers, List.getElem?_eq_none (Nat.le_trans nothing behind)] at answer
      cases answer
  · intro returns
    have ended := afterTurns_ends (start_potential_le started)
    exact ⟨turnLimit tree, fun earlier _ scope answer => returns ⟨earlier, scope, answer⟩,
      (after_within ended _).2 (Nat.le_refl _)⟩

theorem Walker.isEndless_start_iff :
    IsEndless (Walker.start tree cascade entry selection) ↔
      ∃ config, cascade.resolve entry = .ok config ∧ checkRequiredTools tree config = .ok () ∧
        OpensForEver tree (tree.key config.sourceRoot) entry cascade := by
  rw [← Discovery.isEndless_start_iff, Walker.start, isEndless_bind_iff, or_iff_left_iff_imp]
  rintro ⟨_, -, failed⟩
  exact absurd failed (not_isEndless_ok _)

/-- Every walk is bounded. But it comes to its end if and only if it stalls in none of its turns,
and it does not even begin where the source root is never opened. Neither happens where all files
are found again. -/
theorem Walker.ends_iff (tree : FileTree) (cascade : Cascade) (entry : Path)
    (selection : Selection) :
    (IsEndless (Walker.start tree cascade entry selection) ↔
      ∃ config, cascade.resolve entry = .ok config ∧ checkRequiredTools tree config = .ok () ∧
        OpensForEver tree (tree.key config.sourceRoot) entry cascade) ∧
    (∀ walker, Walker.start tree cascade entry selection = .ok walker →
      (∃ config, cascade.resolve entry = .ok config ∧ walker.Bounded tree config.sourceRoot) ∧
      ((∃ calls, walker.EndsAfter calls) ↔ ∀ turns, ¬ (walker.afterTurns turns).Stalls)) ∧
    ((∀ path, tree.isFile path = true → FindsAgain tree path) →
      ¬ IsEndless (Walker.start tree cascade entry selection) ∧
      ∀ walker, Walker.start tree cascade entry selection = .ok walker →
        ∃ calls, walker.EndsAfter calls) := by
  refine ⟨isEndless_start_iff, fun walker started => ?_, fun again => ⟨fun stalls => ?_, ?_⟩⟩
  · exact ⟨start_bounded started, exists_endsAfter_iff started⟩
  · obtain ⟨config, -, -, opens⟩ := isEndless_start_iff.mp stalls
    exact not_opensForEver again opens
  · intro walker started
    refine (exists_endsAfter_iff started).mpr ?_
    rintro turns ⟨directory, name, names, stack, -, stalls⟩
    obtain ⟨_, -, same, -⟩ := start_root started
    refine not_opensForEver ?_ stalls.stalls
    rwa [setting_afterTurns, same]

/-- Two directories with links to each other, to the root and to themselves, and two more links to
one of them. -/
def knottedTree : FileTree where
  entries :=
    [ (["litmus.toml"], .file "suffixes = [\".t\"]\n".toUTF8 false),
      (["a"], .directory),
      (["a", "x.t"], .file "RUN: true\n".toUTF8 false),
      (["a", "over"], .link "/b"),
      (["a", "self"], .link "."),
      (["a", "up"], .link "/"),
      (["b"], .directory),
      (["b", "litmus.local.toml"], .file .empty false),
      (["b", "over"], .link "../a"),
      (["b", "y.t"], .file "RUN: true\n".toUTF8 false),
      (["c"], .link "a"),
      (["d"], .link "/a") ]

def knottedEntry : Path := ⟨"/litmus.toml"⟩

def knottedCascade : Cascade := (({} : Cascade).load knottedTree knottedEntry).1

theorem knotted_findsAgain {path : Path} (isFile : knottedTree.isFile path = true) :
    FindsAgain knottedTree path := by
  have idempotent : knottedTree.Idempotent :=
    FileTree.idempotent_of_entries (FileTree.Inside.root _) (by decide +kernel)
  have orphans : ∀ standing ∈ knottedTree.entries,
      (lineage? knottedTree (Place.path standing.1) 1).isNone = true ∧
        ∀ steps ≤ 1, ∀ path ∈ link? knottedTree (Place.path standing.1) steps,
          (knottedTree.key path).same path = true := by
    decide +kernel
  refine findsAgain_of_entries idempotent (fun place content executable member => ?_) isFile
  obtain ⟨last, found⟩ := orphans _ member
  exact .of_ended (Option.isNone_iff_eq_none.mp last) found

/-- Of all the ways into the two directories one each is taken, and the walk comes to its end. -/
theorem knotted_ends :
    ∃ walker, Walker.start knottedTree knottedCascade knottedEntry {} = .ok walker ∧
      walker.setting.root = ⟨"/"⟩ ∧ walker.entered 14 = [⟨"/a"⟩, ⟨"/a/over"⟩] ∧
      (∃ calls, walker.EndsAfter calls) ∧
      (∀ calls, turnLimit knottedTree ≤ calls → walker.answer calls = none) ∧
      ∀ turns, ∃ canonical, Apart canonical ∧
        (walker.setting.root :: walker.entered turns).map knottedTree.canonical? =
          canonical.map some := by
  have starts : (Walker.start knottedTree knottedCascade knottedEntry {}).toOption.map
      (fun walker => (walker.setting.root, walker.entered 14)) =
        some (⟨"/"⟩, [⟨"/a"⟩, ⟨"/a/over"⟩]) := by decide +kernel
  have resolves : (knottedCascade.resolve knottedEntry).toOption.map
      (fun config => (knottedTree.canonical? config.sourceRoot).isSome) = some true := by
    decide +kernel
  obtain ⟨walker, started, begun⟩ := exists_eq_ok starts
  obtain ⟨config, resolved, leads⟩ := exists_eq_ok resolves
  obtain ⟨root, entered⟩ := Prod.mk.inj begun
  obtain ⟨-, walks, ends⟩ := Walker.ends_iff knottedTree knottedCascade knottedEntry {}
  obtain ⟨⟨config', resolved', bounded⟩, -⟩ := walks walker started
  cases resolved.symm.trans resolved'
  have canonical := bounded.canonical (by decide +kernel) (FileTree.Inside.root _) leads
  exact ⟨walker, started, root, entered, (ends fun path => knotted_findsAgain).2 walker started,
    bounded.silent, canonical⟩

/-- A directory whose local layer has a parent that is its own parent, with a `/.` behind it. -/
def stalledTree : FileTree where
  entries :=
    [ (["litmus.toml"], .file "suffixes = [\".t\"]\n".toUTF8 false),
      (["a"], .directory),
      (["a", "litmus.local.toml"], .file "parent = \"../b/other.toml\"\n".toUTF8 false),
      (["a", "x.t"], .file "RUN: true\n".toUTF8 false),
      (["b"], .directory),
      (["b", "other.toml"], .file "parent = \"d/../other.toml/.\"\n".toUTF8 false),
      (["b", "d"], .directory) ]

def stalledEntry : Path := ⟨"/litmus.toml"⟩

def stalledCascade : Cascade := (({} : Cascade).load stalledTree stalledEntry).1

/-- The parent of its local layer is loaded without an end, if it is not known. -/
theorem stalled_load {cascade : Cascade} (absent : cascade.contains ⟨"/b/other.toml"⟩ = false)
    (unknown : cascade.contains ⟨"/b/d/../other.toml"⟩ = false) :
    ∃ after, cascade.load stalledTree ⟨"/b/other.toml"⟩ =
      (after, .error (.endless ⟨"/b/d/../other.toml"⟩)) := by
  have key : stalledTree.key ⟨"/b/other.toml"⟩ = ⟨"/b/other.toml"⟩ := by decide +kernel
  have reads : (loadLayer stalledTree (stalledTree.key ⟨"/b/other.toml"⟩)).toOption.map
      (fun layer => (layer.scope, layer.parent)) =
        some (⟨"/b/other.toml"⟩, some ⟨"/b/d/../other.toml"⟩) := by decide +kernel
  obtain ⟨layer, loaded, read⟩ := exists_eq_ok reads
  obtain ⟨scope, parent⟩ := Prod.mk.inj read
  have elsewhere : layer.scope.same ⟨"/b/d/../other.toml"⟩ = false := by
    rw [scope]
    decide +kernel
  exact Cascade.load_of_turns loaded parent (by decide +kernel) (by decide +kernel) elsewhere
    (key.symm ▸ absent) unknown

/-- So the directory is never opened. -/
theorem stalled_opening {cascade : Cascade} (scope : Path) (config : EffectiveConfig)
    (absent : cascade.contains ⟨"/b/other.toml"⟩ = false)
    (unknown : cascade.contains ⟨"/b/d/../other.toml"⟩ = false) :
    openDirectory stalledTree (Path.child ⟨"/"⟩ "a") scope config cascade =
      .error (.endless ⟨"/b/d/../other.toml"⟩) := by
  have reads : (loadLayer stalledTree ((Path.child ⟨"/"⟩ "a").child localLayerFile)).toOption.map
      (fun layer => (layer.scope.same ⟨"/b/other.toml"⟩,
        layer.scope.same ⟨"/b/d/../other.toml"⟩, layer.parent)) =
        some (false, false, some ⟨"/b/other.toml"⟩) := by decide +kernel
  obtain ⟨layer, loaded, read⟩ := exists_eq_ok reads
  simp only [Prod.mk.injEq] at read
  obtain ⟨apart, apart', named⟩ := read
  have absent' : (cascade.insert (withParent layer scope)).contains ⟨"/b/other.toml"⟩ = false := by
    rw [Cascade.contains_insert, absent, Bool.or_false]
    exact apart
  have unknown' : (cascade.insert (withParent layer scope)).contains ⟨"/b/d/../other.toml"⟩ =
      false := by
    rw [Cascade.contains_insert, unknown, Bool.or_false]
    exact apart'
  obtain ⟨after, failed⟩ := stalled_load absent' unknown'
  exact openDirectory_of_failed (by decide +kernel) loaded named absent' (by decide +kernel) failed

/-- Its suite is loaded and its walk begins, and the first call never returns. -/
theorem stalled_never_ends :
    ({} : Cascade).load stalledTree stalledEntry = (stalledCascade, .ok stalledEntry) ∧
    ∃ walker, Walker.start stalledTree stalledCascade stalledEntry {} = .ok walker ∧
      walker.answer 0 = some (.error (.endless ⟨"/b/d/../other.toml"⟩)) ∧
      (∃ turns, (walker.afterTurns turns).Stalls) ∧ ∀ calls, ¬ walker.EndsAfter calls := by
  have loaded : (({} : Cascade).load stalledTree stalledEntry).2 = .ok stalledEntry := by
    decide +kernel
  have starts : (Discovery.start stalledTree stalledCascade stalledEntry).toOption.map
      (fun begun => (begun.1.path, begun.1.names, begun.1.config.isExcluded ⟨"a"⟩,
        begun.2.visited, begun.2.cascade.contains ⟨"/b/other.toml"⟩,
        begun.2.cascade.contains ⟨"/b/d/../other.toml"⟩)) =
      some (⟨"/"⟩, ["a", "b"], false, [⟨"/"⟩], false, false) := by decide +kernel
  obtain ⟨⟨⟨_, _, scope, config⟩, progress⟩, begun, facts⟩ := exists_eq_ok starts
  simp only [Prod.mk.injEq] at facts
  obtain ⟨rfl, rfl, included, visited, absent, unknown⟩ := facts
  have below : (Path.child ⟨"/"⟩ "a").relativeTo? ⟨"/"⟩ = some ⟨"a"⟩ := by decide +kernel
  have isDirectory : stalledTree.isDirectory (Path.child ⟨"/"⟩ "a") = true := by decide +kernel
  have reached : ({} : Selection).reaches (Path.child ⟨"/"⟩ "a") = true := by decide +kernel
  have unmet : progress.visited.any (Path.same (stalledTree.key (Path.child ⟨"/"⟩ "a"))) =
      false := by
    rw [visited]
    decide +kernel
  have visits : Setting.visit ⟨stalledTree, ⟨"/"⟩, {}⟩ ⟨⟨"/"⟩, ["a", "b"], scope, config⟩ "a"
      progress = .failed (.endless ⟨"/b/d/../other.toml"⟩) :=
    visit_eq_failed_iff.mpr ⟨⟨"a"⟩, below, isDirectory, included, reached, unmet,
      stalled_opening scope config absent unknown⟩
  let walker : Walker :=
    ⟨⟨stalledTree, ⟨"/"⟩, {}⟩, [⟨⟨⟨"/"⟩, ["a", "b"], scope, config⟩, ["a", "b"]⟩], progress⟩
  have started : Walker.start stalledTree stalledCascade stalledEntry {} = .ok walker := by
    rw [Walker.start, begun]
    rfl
  have answer : walker.answer 0 = some (.error (.endless ⟨"/b/d/../other.toml"⟩)) :=
    Walker.answer_of_failed visits
  refine ⟨by rw [stalledCascade, ← loaded], walker, started, answer,
    Walker.exists_answer_endless_iff.mp ⟨0, _, answer⟩, ?_⟩
  rintro calls ⟨returned, ended⟩
  cases calls with
  | zero => cases answer.symm.trans ended
  | succ calls => exact returned 0 (Nat.succ_pos calls) _ answer

end SuiteRunner.Discovery
