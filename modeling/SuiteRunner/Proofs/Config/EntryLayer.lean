import SuiteRunner.Config.Load
import SuiteRunner.Proofs.Files.Course

/-!
# The start of a suite

The search for the entry layer climbs along the text of a path, from the end to the root. So it
passes, from the last to the first, the directories that the path goes through, and these include
all directories at or above its end. With a `..` in the path they may include others, and if one of
those holds a layer file, it may be found before the nearest one above.
-/

namespace SuiteRunner.Config

open Files
open SuiteRunner.Path (Component)

variable {tree : FileTree} {path start : Path} {place directory holder : Place}
  {course front : List Component}

/-- A layer file stands in the directory. -/
def HoldsLayer (tree : FileTree) (directory : Place) : Prop :=
  ∃ content executable,
    tree.entry? (directory ++ [layerFile]) = some (.file content executable)

/-- The answer is the layer file of the nearest directory at or above the given one that holds one,
or that there is none. -/
inductive NearestLayer (tree : FileTree) (directory : Place) : Except Error Path → Prop where
  | found {file : Path} {holder : Place} (above : holder <+: directory)
      (holds : HoldsLayer tree holder)
      (nearest : ∀ other, other <+: directory → HoldsLayer tree other → other <+: holder)
      (leads : tree.locate file {} = .ok (holder ++ [layerFile])) :
      NearestLayer tree directory (.ok file)
  | nothing {asked : Path} (nothing : ∀ other, other <+: directory → ¬ HoldsLayer tree other) :
      NearestLayer tree directory (.error (.noEntryLayer asked))

/-- The directory a path leads to, or the one with the file it leads to. -/
def enclosing (tree : FileTree) (place : Place) : Place :=
  match tree.entry? place with
  | some .directory => place
  | _ => place.dropLast

/-- The way from the root to a path. -/
def courseTo (tree : FileTree) (start : Path) : List Component :=
  (if start.isAbsolute then [] else tree.workingDirectory.map Component.name) ++ start.written

/-- The last directory that is gone through and holds a layer file. -/
structure LastHolder (tree : FileTree) (course front : List Component) (holder : Place) :
    Prop where
  within : front <+: course
  passes : tree.Passes [] front holder
  holds : HoldsLayer tree holder
  last : ∀ further there, further <+: course → tree.Passes [] further there →
    HoldsLayer tree there → further <+: front

/-- The last one is not at or above the directory. -/
def Strays (tree : FileTree) (course : List Component) (directory : Place) : Prop :=
  ∃ front holder, LastHolder tree course front holder ∧ ¬ holder <+: directory

/-! ### Climbing -/

/-- What the search finds. -/
inductive Finds (tree : FileTree) (course : List Component) : Option Path → Prop where
  | found {front : List Component} {holder : Place} {file : Path}
      (last : LastHolder tree course front holder)
      (leads : tree.locate file {} = .ok (holder ++ [layerFile])) :
      Finds tree course (some file)
  | nothing (nothing : ∀ front there, front <+: course → tree.Passes [] front there →
      ¬ HoldsLayer tree there) : Finds tree course none

theorem isName_layerFile : IsName layerFile := by decide

theorem short_layerFile : layerFile.length ≤ nameLimit := by decide

/-- If the last directory holds no layer file, or is none, what is found is found before. -/
theorem Finds.of_front {component : Component} {found : Option Path}
    (finds : Finds tree front found)
    (passed : ∀ there, tree.Passes [] (front ++ [component]) there → ¬ HoldsLayer tree there) :
    Finds tree (front ++ [component]) found := by
  -- One component more adds one front only, and no layer stands there.
  have earlier {further : List Component} {there : Place}
      (within : further <+: front ++ [component]) (passes : tree.Passes [] further there)
      (holds : HoldsLayer tree there) : further <+: front := by
    rcases List.prefix_concat_iff.mp within with rfl | within
    · exact absurd holds (passed there passes)
    · exact within
  cases finds with
  | found last leads =>
    refine .found ⟨last.within.trans (List.prefix_append _ _), last.passes, last.holds, ?_⟩ leads
    intro further there within passes holds
    exact last.last further there (earlier within passes holds) passes holds
  | nothing nothing =>
    refine .nothing fun further there within passes holds => ?_
    exact nothing further there (earlier within passes holds) passes holds

/-- Climbing from a path comes to the directories it goes through, from the last to the first. -/
theorem finds_of_ancestors (plain : tree.Plain) {bound : Nat}
    (isAbsolute : path.isAbsolute = true) (fits : FileTree.Fits (path.child layerFile))
    (enough : path.written.length < bound) :
    Finds tree path.written
      (((path.ancestorsUpTo bound).map (·.child layerFile)).find? tree.isFile) := by
  induction bound generalizing path with
  | zero => exact absurd enough (Nat.not_lt_zero _)
  | succ bound ih =>
    have here := plain.isFile_child_iff isAbsolute isName_layerFile short_layerFile fits
    rw [Path.ancestorsUpTo, List.map_cons, List.find?_cons]
    cases isFile : tree.isFile (path.child layerFile) with
    | true =>
      -- the search ends here, with the whole way as the last one
      obtain ⟨holder, content, executable, passes, stands⟩ := here.mp isFile
      refine .found ⟨List.prefix_refl _, passes, ⟨content, executable, stands⟩,
        fun _ _ within _ _ => within⟩ ?_
      exact passes.locate_child isAbsolute isName_layerFile short_layerFile fits stands
    | false =>
      have passed (there : Place) (passes : tree.Passes [] path.written there) :
          ¬ HoldsLayer tree there := by
        rintro ⟨content, executable, stands⟩
        cases isFile.symm.trans (here.mpr ⟨there, content, executable, passes, stands⟩)
      -- above the root there is nothing, and else the parent has the way without its last step
      rcases List.eq_nil_or_concat path.written with nothing | ⟨front, component, spelled⟩
      · rw [Path.parent?_of_root isAbsolute nothing, nothing]
        rw [nothing] at passed
        refine .nothing fun front there within passes => ?_
        rw [List.prefix_nil.mp within] at passes
        exact passed there passes
      · rw [List.concat_eq_append] at spelled
        obtain ⟨parent, upwards, above, written⟩ := Path.parent?_of_written isAbsolute spelled
        rw [upwards, spelled]
        rw [spelled] at passed enough
        have fits' := fits.child_of_above above isAbsolute isName_layerFile
        have found := ih above.isAbsolute fits' (by simp [written] at enough ⊢; omega)
        rw [written] at found
        exact found.of_front passed

/-! ### The way to a path -/

theorem passes_workingDirectory (plain : tree.Plain) (named : IsPlace tree.workingDirectory)
    (entered : tree.isDirectory tree.workingDirectory.path = true) :
    tree.Passes [] (tree.workingDirectory.map Component.name) tree.workingDirectory := by
  have isAbsolute := Place.isAbsolute_path tree.workingDirectory
  obtain ⟨place, located, stands⟩ :=
    FileTree.find_eq_ok_iff.mp (FileTree.isDirectory_iff.mp entered)
  obtain ⟨follow, same⟩ := tree.exists_walk_eq {}
  obtain ⟨-, walked⟩ := FileTree.walk_of_locate located
  rw [if_pos isAbsolute, same] at walked
  have written : (Place.path tree.workingDirectory).written =
      tree.workingDirectory.map Component.name := by
    have spelled := Place.components_path named
    rw [Path.components_eq_written isAbsolute] at spelled
    exact (List.cons.inj spelled).2
  -- Where a way ends at its last name there is no directory, and here is one, so all names are
  -- passed.
  rcases plain.passes_or_ends (FileTree.moves_stepsOf _) walked with passes | ⟨name, ends⟩
  · rw [written] at passes
    have here := Place.foldl_move_names [] tree.workingDirectory
    rw [passes.foldl_move, List.nil_append] at here
    exact here ▸ passes
  · exact absurd stands ends.noDirectory

/-- A path that leads somewhere goes through directories, at least to the one its end is in. -/
theorem course_passes_or_ends (plain : tree.Plain) (named : IsPlace tree.workingDirectory)
    (entered : tree.isDirectory tree.workingDirectory.path = true)
    (located : tree.locate start {} = .ok place) :
    tree.Passes [] (courseTo tree start) place ∨
      ∃ name, tree.Ends [] (courseTo tree start) name place := by
  obtain ⟨-, walked⟩ := FileTree.walk_of_locate located
  obtain ⟨follow, same⟩ := tree.exists_walk_eq {}
  rw [same] at walked
  have moved := FileTree.moves_stepsOf start
  -- An absolute path starts at the root, and any other one where the working directory has been
  -- passed.
  by_cases isAbsolute : start.isAbsolute = true
  · rw [if_pos isAbsolute] at walked
    rw [courseTo, if_pos isAbsolute]
    exact plain.passes_or_ends moved walked
  · rw [if_neg isAbsolute] at walked
    rw [courseTo, if_neg isAbsolute]
    have begins := passes_workingDirectory plain named entered
    rcases plain.passes_or_ends moved walked with passes | ⟨name, ends⟩
    · exact .inl (begins.append passes)
    · exact .inr ⟨name, begins.append_ends ends⟩

/-- The absolute form of a path that leads somewhere. -/
theorem exists_absolute (named : IsPlace tree.workingDirectory)
    (entered : tree.isDirectory tree.workingDirectory.path = true)
    (located : tree.locate start {} = .ok place) :
    ∃ absolute, Path.absolute? tree.workingDirectory.path start = some absolute ∧
      absolute.isAbsolute = true ∧ absolute.written = courseTo tree start ∧
      '\x00' ∉ absolute.text.toList := by
  have spoken := (FileTree.walk_of_locate located).1
  have made := Path.absolute?_of_spoken spoken tree.workingDirectory.path
  generalize (Path.withSlash _ _) = absolute at made
  have isAbsolute := Path.isAbsolute_of_absolute? (Place.isAbsolute_path _) made
  refine ⟨absolute, made, isAbsolute, ?_, fun nul => ?_⟩
  · have spelled := Path.components_absolute? named made
    rw [Path.components_eq_written isAbsolute] at spelled
    exact (List.cons.inj spelled).2
  · -- every character of the form stands in the path or in the working directory
    obtain ⟨_, located', -⟩ := FileTree.find_eq_ok_iff.mp (FileTree.isDirectory_iff.mp entered)
    rcases Path.mem_of_mem_absolute? named made (by decide) nul with among | among
    · exact FileTree.noNul_of_locate located' among
    · exact FileTree.noNul_of_locate located among

theorem enclosing_of_directory (stands : tree.entry? place = some .directory) :
    enclosing tree place = place := by
  rw [enclosing, stands]

theorem enclosing_of_ne (stands : tree.entry? place ≠ some .directory) :
    enclosing tree place = place.dropLast := by
  rw [enclosing]
  split
  next directory => exact absurd directory stands
  next => rfl

/-- The directories that are gone through end with the one that the path leads to, or with the one
that its end is in. -/
theorem exists_climb
    (leads : tree.Passes [] course place ∨ ∃ name, tree.Ends [] course name place) :
    ∃ climb, climb <+: course ∧ tree.Passes [] climb (enclosing tree place) ∧
      ∀ front there, front <+: course → tree.Passes [] front there → front <+: climb := by
  -- Either every component is passed and the place is a directory, or no directory stands at the
  -- last name and the climb starts one component before it.
  rcases leads with passes | ⟨name, ends⟩
  · have inside := passes.inside (FileTree.Inside.root tree)
    rw [enclosing_of_directory (inside place (List.prefix_refl _))]
    exact ⟨course, List.prefix_refl _, passes, fun _ _ within _ => within⟩
  · rw [enclosing_of_ne ends.noDirectory]
    have noWay {there : Place} : ¬ tree.Passes [] course there := ends.not_passes
    obtain ⟨front, there, rfl, rfl, passes⟩ := ends.exists_front
    rw [List.dropLast_concat]
    refine ⟨front, List.prefix_append _ _, passes, fun further there within passes => ?_⟩
    rcases List.prefix_concat_iff.mp within with rfl | within
    · exact absurd passes noWay
    · exact within

theorem ancestors_eq (isAbsolute : path.isAbsolute = true) :
    path.ancestors = path.ancestorsUpTo (path.written.length + 2) := by
  rw [Path.ancestors, Path.components_eq_written isAbsolute, List.length_cons]

/-- The search finds the last directory on the way that holds a layer file. -/
theorem finds_of_searchStart (plain : tree.Plain)
    (leads : tree.Passes [] path.written place ∨ ∃ name, tree.Ends [] path.written name place)
    (isAbsolute : path.isAbsolute = true) (fits : FileTree.Fits (path.child layerFile))
    (fits' : FileTree.Fits path) :
    Finds tree path.written
      ((((searchStart tree path).elim [] Path.ancestors).map (·.child layerFile)).find?
        tree.isFile) := by
  have whole : Finds tree path.written
      ((path.ancestors.map (·.child layerFile)).find? tree.isFile) := by
    rw [ancestors_eq isAbsolute]
    exact finds_of_ancestors plain isAbsolute fits (by omega)
  rw [searchStart]
  split
  next isFile =>
    rcases leads with passes | ⟨name, ends⟩
    · -- a directory is no file
      have inside := passes.inside (FileTree.Inside.root tree)
      have located := passes.locate isAbsolute fits'
      obtain ⟨content, executable, found⟩ := FileTree.isFile_iff.mp isFile
      obtain ⟨other, located', stands⟩ := FileTree.find_eq_ok_iff.mp found
      cases located.symm.trans located'
      cases (inside place (List.prefix_refl _)).symm.trans stands
    · have noWay {there : Place} : ¬ tree.Passes [] path.written there := ends.not_passes
      obtain ⟨front, there, spelled, -, -⟩ := ends.exists_front
      obtain ⟨parent, upwards, above, written⟩ := Path.parent?_of_written isAbsolute spelled
      have fits := fits.child_of_above above isAbsolute isName_layerFile
      have found := finds_of_ancestors plain above.isAbsolute fits
        (Nat.lt_add_of_pos_right Nat.zero_lt_two)
      rw [upwards, Option.elim_some, ancestors_eq above.isAbsolute, spelled]
      rw [written] at found ⊢
      refine found.of_front fun there passes => ?_
      exact absurd (spelled ▸ passes) noWay
  next => exact whole

/-! ### The nearest directory above -/

/-- A directory at or above the end is gone through. -/
theorem exists_passes_above {climb : List Component} (climbs : tree.Passes [] climb directory)
    {above : Place} (within : above <+: directory) :
    ∃ front, front <+: climb ∧ tree.Passes [] front above := by
  rw [← climbs.foldl_move] at within
  obtain ⟨front, back, rfl, same⟩ := Place.exists_front within (Nat.zero_le _)
  obtain ⟨there, passes, -⟩ := climbs.exists_of_append
  obtain rfl := passes.foldl_move.symm.trans same
  exact ⟨front, List.prefix_append _ _, passes⟩

/-- Between a directory that is gone through and the end of the way below it, every directory is
gone through later. -/
theorem exists_passes_between {climb : List Component} (climbs : tree.Passes [] climb directory)
    (within : front <+: climb) (passes : tree.Passes [] front holder) {between : Place}
    (above : between <+: directory) (below : holder.length ≤ between.length) :
    ∃ later, front ++ later <+: climb ∧ tree.Passes [] (front ++ later) between := by
  obtain ⟨rest, rfl⟩ := within
  obtain ⟨there, passes', climbs'⟩ := climbs.exists_of_append
  cases passes.unique passes'
  rw [← climbs'.foldl_move] at above
  obtain ⟨later, back, rfl, same⟩ := Place.exists_front above below
  rw [← List.append_assoc] at climbs ⊢
  obtain ⟨there, passes'', -⟩ := climbs.exists_of_append
  have reached := passes''.foldl_move
  rw [List.foldl_append, passes.foldl_move, same] at reached
  exact ⟨later, List.prefix_append _ _, reached ▸ passes''⟩

theorem LastHolder.unique {front' : List Component} {holder' : Place}
    (last : LastHolder tree course front holder) (last' : LastHolder tree course front' holder') :
    holder = holder' := by
  have within := last'.last front holder last.within last.passes last.holds
  have within' := last.last front' holder' last'.within last'.passes last'.holds
  obtain rfl := within.eq_of_length_le within'.length_le
  exact last.passes.unique last'.passes

/-- The last directory that holds a layer file is the nearest one above, if it is above. -/
theorem LastHolder.nearest {climb : List Component} (last : LastHolder tree course front holder)
    (climbs : tree.Passes [] climb directory) (within : climb <+: course)
    (passed : front <+: climb) (above : holder <+: directory) {other : Place}
    (above' : other <+: directory) (holds : HoldsLayer tree other) : other <+: holder := by
  -- a directory below the holder is gone through later, so it would have been the last one
  rcases Nat.le_total other.length holder.length with shorter | longer
  · exact List.prefix_of_prefix_length_le above' above shorter
  · obtain ⟨later, passed', passes⟩ :=
      exists_passes_between climbs passed last.passes above' longer
    have before := last.last _ other (passed'.trans within) passes holds
    have nothing : later = [] := List.self_eq_append_right.mp
      ((List.prefix_append front later).eq_of_length_le before.length_le)
    subst nothing
    rw [List.append_nil] at passes
    obtain rfl := passes.unique last.passes
    exact List.prefix_refl _

theorem strays_iff (last : LastHolder tree course front holder) :
    Strays tree course directory ↔ ¬ holder <+: directory := by
  constructor
  · rintro ⟨front', holder', last', astray⟩
    rwa [last.unique last']
  · exact fun astray => ⟨front, holder, last, astray⟩

theorem not_strays (downwards : Component.up ∉ course)
    {climb : List Component} (climbs : tree.Passes [] climb directory) (within : climb <+: course)
    (passed : ∀ front there, front <+: course → tree.Passes [] front there → front <+: climb) :
    ¬ Strays tree course directory := by
  rintro ⟨front, holder, last, astray⟩
  -- from the holder on, the way only goes down
  obtain ⟨rest, rfl⟩ := passed front holder last.within last.passes
  refine astray ?_
  rw [← climbs.foldl_move, List.foldl_append, last.passes.foldl_move]
  refine Place.prefix_foldl_move fun up => downwards (within.subset ?_)
  exact List.mem_append_right _ up

/-- In a tree without links the layer file in the nearest directory at or above a path is found, or
it is reported that there is none, if and only if the last directory that the way to the path goes
through and that holds one is at or above its end. So it is, if there is no `..` in the path. -/
theorem findEntryLayer_nearest_iff (plain : tree.Plain) (named : IsPlace tree.workingDirectory)
    (entered : tree.isDirectory tree.workingDirectory.path = true)
    (located : tree.locate start {} = .ok place)
    (short : (((Path.absolute? tree.workingDirectory.path start).getD start).child
      layerFile).text.length < pathLimit) :
    (NearestLayer tree (enclosing tree place) (findEntryLayer tree start) ↔
      ¬ Strays tree (courseTo tree start) (enclosing tree place)) ∧
    (Component.up ∉ start.written →
      NearestLayer tree (enclosing tree place) (findEntryLayer tree start)) := by
  have leads := course_passes_or_ends plain named entered located
  obtain ⟨climb, within, climbs, passed⟩ := exists_climb leads
  obtain ⟨absolute, made, isAbsolute, written, noNul⟩ := exists_absolute named entered located
  rw [made, Option.getD_some] at short
  obtain ⟨fits, fits'⟩ :=
    FileTree.fits_of_child isAbsolute isName_layerFile noNul (by decide) short
  have finds := finds_of_searchStart plain (written.symm ▸ leads) isAbsolute fits' fits
  rw [written] at finds
  have exactly : NearestLayer tree (enclosing tree place) (findEntryLayer tree start) ↔
      ¬ Strays tree (courseTo tree start) (enclosing tree place) := by
    unfold findEntryLayer
    simp only [made, Option.getD_some]
    generalize List.find? _ _ = found at finds
    cases finds with
    | @found front holder file last leads =>
      have passed := passed front holder last.within last.passes
      rw [strays_iff last, not_not]
      constructor
      · -- the answer leads to one place only, which is that of the last holder
        rintro ⟨above, -, -, leads'⟩
        obtain ⟨rfl, -⟩ := List.append_inj' (Except.ok.inj (leads.symm.trans leads')) rfl
        exact above
      · exact fun above => .found above last.holds
          (fun other above' holds => last.nearest climbs within passed above above' holds) leads
    | nothing nothing =>
      -- every directory at or above the end is gone through, so none of them holds one
      refine iff_of_true (.nothing fun other above holds => ?_) ?_
      · obtain ⟨front, before, passes⟩ := exists_passes_above climbs above
        exact nothing front other (before.trans within) passes holds
      · rintro ⟨front, holder, last, -⟩
        exact nothing front holder last.within last.passes last.holds
  refine ⟨exactly, fun downwards => exactly.mpr (not_strays ?_ climbs within passed)⟩
  rw [courseTo, List.mem_append, not_or]
  refine ⟨?_, downwards⟩
  split <;> simp

/-- A suite in which a directory without a layer file has a sibling with one. -/
def siblingLayer : FileTree where
  entries :=
    [ (["litmus.toml"], .file .empty false),
      (["s"], .directory),
      (["s", "a"], .directory),
      (["s", "a", "litmus.toml"], .file .empty false),
      (["s", "b"], .directory),
      (["s", "b", "x.t"], .file "RUN: true\n".toUTF8 false) ]
  workingDirectory := ["s"]

/-- A test below the sibling of the layer file. -/
theorem siblingLayer_nearest :
    siblingLayer.Plain ∧ siblingLayer.locate ⟨"./b//x.t"⟩ {} = .ok ["s", "b", "x.t"] ∧
      findEntryLayer siblingLayer ⟨"./b//x.t"⟩ = .ok ⟨"/litmus.toml"⟩ ∧
      NearestLayer siblingLayer ["s", "b"] (.ok ⟨"/litmus.toml"⟩) := by
  have plain : siblingLayer.Plain := by decide +kernel
  have named : IsPlace siblingLayer.workingDirectory := by decide +kernel
  have entered : siblingLayer.isDirectory siblingLayer.workingDirectory.path = true := by
    decide +kernel
  have located : siblingLayer.locate ⟨"./b//x.t"⟩ {} = .ok ["s", "b", "x.t"] := by
    decide +kernel
  have short : (((Path.absolute? siblingLayer.workingDirectory.path ⟨"./b//x.t"⟩).getD
      ⟨"./b//x.t"⟩).child layerFile).text.length < pathLimit := by decide +kernel
  have answer : findEntryLayer siblingLayer ⟨"./b//x.t"⟩ = .ok ⟨"/litmus.toml"⟩ := by
    decide +kernel
  have nearest := (findEntryLayer_nearest_iff plain named entered located short).2
    (by decide +kernel)
  rw [answer] at nearest
  exact ⟨plain, located, answer, nearest⟩

/-- Up from the directory with the layer file, that file is found, and not the one above. -/
theorem siblingLayer_strays :
    siblingLayer.Plain ∧ siblingLayer.locate ⟨"/s/a/.."⟩ {} = .ok ["s"] ∧
      findEntryLayer siblingLayer ⟨"/s/a/.."⟩ = .ok ⟨"/s/a/litmus.toml"⟩ ∧
      HoldsLayer siblingLayer [] ∧
      ¬ NearestLayer siblingLayer ["s"] (.ok ⟨"/s/a/litmus.toml"⟩) := by
  refine ⟨by decide +kernel, by decide +kernel, by decide +kernel, ⟨_, _, rfl⟩, ?_⟩
  rintro ⟨above, -, -, leads⟩
  have located : siblingLayer.locate ⟨"/s/a/litmus.toml"⟩ {} = .ok (["s", "a"] ++ [layerFile]) := by
    decide +kernel
  obtain ⟨rfl, -⟩ := List.append_inj' (Except.ok.inj (leads.symm.trans located)) rfl
  exact absurd above (by decide)

end SuiteRunner.Config
