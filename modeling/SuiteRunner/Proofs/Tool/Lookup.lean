import SuiteRunner.Proofs.Config.Merging
import SuiteRunner.Proofs.Files.Spelling

/-!
# Looking up over a chain of layers

A lookup searches the merged list of directories, in which every directory stands once, where it is
listed first. It finds what a search through the lists of the layers would find, one list after
another with all repetitions: a directory that was left out could only have held what the same
directory, in another spelling, held before.
-/

namespace SuiteRunner

open Files
open Config (appendUnique mergeLists flatten Joins Layer)

namespace Files.FileTree

variable {tree : FileTree} {path other : Path}

/-- Spellings of one path denote the same, among these paths. A slash behind the name of a file is
a difference in any tree, so this is not asked of all paths there are. -/
def DenotesAlike (tree : FileTree) (paths : List Path) : Prop :=
  ∀ path ∈ paths, ∀ other ∈ paths, path.same other = true →
    (tree.find path).toOption = (tree.find other).toOption

theorem isFile_eq_of_toOption (same : (tree.find path).toOption = (tree.find other).toOption) :
    tree.isFile path = tree.isFile other := by
  unfold isFile
  cases found : tree.find path <;> cases found' : tree.find other <;>
    simp_all [Except.toOption]

theorem isExecutable_eq_of_toOption
    (same : (tree.find path).toOption = (tree.find other).toOption) :
    tree.isExecutable path = tree.isExecutable other := by
  unfold isExecutable
  cases found : tree.find path <;> cases found' : tree.find other <;>
    simp_all [Except.toOption]

/-- In every tree the candidates of a search are told apart by their components alone, if they are
not too long for a path. -/
theorem denotesAlike_of_short {directories : List Path} {fileName : String}
    (short : ∀ directory ∈ directories,
      (directory.child fileName).text.length < pathLimit) :
    tree.DenotesAlike (directories.map (·.child fileName)) := by
  simp only [DenotesAlike, List.forall_mem_map]
  intro directory member other member' same
  congr 1
  cases absolute : (⟨fileName⟩ : Path).isAbsolute with
  | true =>
    -- such a name leads away from every directory
    rw [Path.child, Path.child, Path.join_of_isAbsolute absolute, Path.join_of_isAbsolute absolute]
  | false =>
    obtain ⟨front, ends⟩ := Path.exists_segments_join absolute directory
    obtain ⟨front', ends'⟩ := Path.exists_segments_join absolute other
    exact find_alike same ends ends' (Text.split_ne_nil '/' _) (short directory member)
      (short other member')

end Files.FileTree

namespace Tool

variable {accepts : Path → Bool} {fileName : String}

/-! ### Searching -/

/-- What the first of the directories holds that holds an accepted file of this name. -/
def IsFirst (accepts : Path → Bool) (directories : List Path) (fileName : String)
    (path : Path) : Prop :=
  ∃ before directory behind, directories = before ++ directory :: behind ∧
    path = directory.child fileName ∧ accepts path = true ∧
    ∀ earlier ∈ before, accepts (earlier.child fileName) = false

theorem search_eq_some_iff {directories : List Path} {path : Path} :
    search accepts directories fileName = some path ↔
      IsFirst accepts directories fileName path := by
  rw [search, List.find?_map, Option.map_eq_some_iff]
  simp only [List.find?_eq_some_iff_append, Function.comp_apply, Bool.not_eq_true']
  constructor
  · rintro ⟨directory, ⟨accepted, before, behind, split, refused⟩, rfl⟩
    exact ⟨before, directory, behind, split, rfl, accepted, refused⟩
  · rintro ⟨before, directory, behind, split, rfl, accepted, refused⟩
    exact ⟨directory, ⟨accepted, before, behind, split, refused⟩, rfl⟩

theorem search_isSome_iff {directories : List Path} :
    (search accepts directories fileName).isSome = true ↔
      ∃ directory ∈ directories, accepts (directory.child fileName) = true := by
  simp [search]

theorem search_append (directories more : List Path) :
    search accepts (directories ++ more) fileName =
      (search accepts directories fileName).or (search accepts more fileName) := by
  rw [search, List.map_append, List.find?_append]
  rfl

/-- A directory adds nothing to a search if it is refused, or something before is accepted. -/
theorem search_skip {directory : Path} (directories more : List Path)
    (known : accepts (directory.child fileName) = true →
      ∃ kept ∈ directories, accepts (kept.child fileName) = true) :
    search accepts (directories ++ directory :: more) fileName =
      search accepts (directories ++ more) fileName := by
  rw [search_append, search_append]
  cases found : search accepts directories fileName with
  | some path => rw [Option.some_or, Option.some_or]
  | none =>
    have refused : ¬ accepts (directory.child fileName) = true := by
      intro accepted
      have hit := search_isSome_iff.mpr (known accepted)
      rw [found] at hit
      cases hit
    simp [search, refused]

/-! ### Searching what was merged -/

/-- Spellings of one of the directories hold the same file, as far as it is accepted. -/
def AcceptsAlike (accepts : Path → Bool) (fileName : String) (directories : List Path) : Prop :=
  ∀ directory ∈ directories, ∀ other ∈ directories, directory.same other = true →
    accepts (directory.child fileName) = accepts (other.child fileName)

theorem AcceptsAlike.mono {directories all : List Path}
    (alike : AcceptsAlike accepts fileName all) (within : directories ⊆ all) :
    AcceptsAlike accepts fileName directories :=
  fun directory member other member' => alike directory (within member) other (within member')

theorem AcceptsAlike.of_tree {tree : FileTree} {directories : List Path}
    (alike : tree.DenotesAlike (directories.map (·.child fileName)))
    (decides : ∀ path other, (tree.find path).toOption = (tree.find other).toOption →
      accepts path = accepts other) : AcceptsAlike accepts fileName directories := by
  intro directory member other member' same
  apply decides
  exact alike _ (List.mem_map_of_mem member) _ (List.mem_map_of_mem member')
    (Path.same_join same ⟨fileName⟩)

theorem search_appendUnique {directories found : List Path}
    (alike : AcceptsAlike accepts fileName (directories ++ found)) :
    search accepts (appendUnique Path.same directories found) fileName =
      search accepts (directories ++ found) fileName := by
  -- By induction on what is appended. A directory that is left out is like one that is kept, so it
  -- accepts only what that one has accepted before.
  induction found generalizing directories with
  | nil => rw [List.append_nil]; rfl
  | cons directory found ih =>
    rw [appendUnique, List.foldl_cons, ← appendUnique]
    split
    next present =>
      obtain ⟨kept, member, same⟩ := List.any_eq_true.mp present
      rw [ih (alike.mono (by simp))]
      refine (search_skip directories found fun accepted => ⟨kept, member, ?_⟩).symm
      rw [alike kept (by simp [member]) directory (by simp) same]
      exact accepted
    next absent =>
      have moved : directories ++ [directory] ++ found = directories ++ directory :: found := by
        simp
      rw [ih (by rwa [moved]), moved]

/-- To a search it makes no difference that repetitions have been left out. -/
theorem search_mergeLists {lists : List (List Path)}
    (alike : AcceptsAlike accepts fileName lists.flatten) :
    search accepts (mergeLists Path.same lists) fileName =
      search accepts lists.flatten fileName := by
  induction lists using List.reverseRecOn with
  | nil => rfl
  | append_singleton lists list ih =>
    rw [List.flatten_concat] at alike ⊢
    -- What is merged comes from the lists, so the directories that are alike among those are alike
    -- here.
    have merged : mergeLists Path.same lists ⊆ lists.flatten := by
      intro directory member
      obtain ⟨list, listed, inside⟩ := (Config.joins_paths lists).exists_list member
      exact List.mem_flatten.mpr ⟨list, listed, inside⟩
    have within : mergeLists Path.same lists ++ list ⊆ lists.flatten ++ list :=
      List.append_subset.mpr
        ⟨List.subset_append_of_subset_left _ merged, List.subset_append_right _ _⟩
    rw [mergeLists, List.foldl_concat, ← mergeLists, search_appendUnique (alike.mono within),
      search_append, ih (alike.mono (List.subset_append_left _ _)), search_append]

/-! ### Answers -/

/-- What a lookup owes to the lists of the layers, the most specific layer first. -/
structure Answers (kind : Kind) (accepts : Path → Bool) (lists : List (List Path))
    (fileName name : String) (answer : Except NotFound Path) : Prop where
  succeeds : (∃ path, answer = .ok path) ↔
    ∃ list ∈ lists, ∃ directory ∈ list, accepts (directory.child fileName) = true
  first : ∀ path, answer = .ok path ↔ IsFirst accepts lists.flatten fileName path
  /-- Searching with all repetitions gives the same. -/
  repeated : answer.toOption = search accepts lists.flatten fileName
  failure : ∀ missing, answer = .error missing →
    missing.kind = kind ∧ missing.name = name ∧ Joins Path.same lists missing.searched

theorem answers_mergeLists {lists : List (List Path)}
    (alike : AcceptsAlike accepts fileName lists.flatten) (kind : Kind) (name : String) :
    Answers kind accepts lists fileName name
      (match search accepts (mergeLists Path.same lists) fileName with
        | some path => .ok path
        | none => .error ⟨kind, name, mergeLists Path.same lists⟩) := by
  -- A hit is a directory of one of the lists that has the file, whichever list it is.
  have hits : (∃ path, search accepts lists.flatten fileName = some path) ↔
      ∃ list ∈ lists, ∃ directory ∈ list, accepts (directory.child fileName) = true := by
    rw [← Option.isSome_iff_exists, search_isSome_iff]
    constructor
    · rintro ⟨directory, member, accepted⟩
      obtain ⟨list, listed, inside⟩ := List.mem_flatten.mp member
      exact ⟨list, listed, directory, inside, accepted⟩
    · rintro ⟨list, listed, directory, inside, accepted⟩
      exact ⟨directory, List.mem_flatten.mpr ⟨list, listed, inside⟩, accepted⟩
  rw [search_mergeLists alike]
  cases found : search accepts lists.flatten fileName with
  | some path =>
    refine ⟨?_, fun path' => ?_, found.symm, fun _ failed => by cases failed⟩
    · rw [← hits, found]
      simp
    · rw [← search_eq_some_iff, found]
      simp
  | none =>
    refine ⟨?_, fun path' => ?_, found.symm, ?_⟩
    · rw [← hits, found]
      simp
    · rw [← search_eq_some_iff, found]
      simp
    · rintro missing ⟨⟩
      exact ⟨rfl, rfl, Config.joins_paths lists⟩

/-- The directories of a chain are searched as the layers list them, the most specific layer first
and each list in its own order. A lookup succeeds if any of them holds what is looked for, and then
the first one decides; if none does, it names them all, each once and in that order. -/
theorem lookup_reads_the_layers (chain : List Layer) (tree : FileTree) (name : String) :
    let places := (flatten chain).places
    let toolName := Text.pack ((flatten chain).naming.executableName name)
    let libraryName := Text.pack ((flatten chain).naming.libraryName name)
    (tree.DenotesAlike ((chain.flatMap (·.toolDirs)).map (·.child toolName)) →
      Answers .executable tree.isExecutable (chain.map (·.toolDirs)) toolName name
        (places.tool tree name)) ∧
    (tree.DenotesAlike ((chain.flatMap (·.libraryDirs)).map (·.child libraryName)) →
      Answers .library tree.isFile (chain.map (·.libraryDirs)) libraryName name
        (places.library tree name)) := by
  intro places toolName libraryName
  rw [List.flatMap_def, List.flatMap_def]
  constructor
  · intro alike
    have accepted : AcceptsAlike tree.isExecutable toolName (chain.map (·.toolDirs)).flatten :=
      .of_tree alike fun _ _ => FileTree.isExecutable_eq_of_toOption
    exact answers_mergeLists accepted .executable name
  · intro alike
    have accepted : AcceptsAlike tree.isFile libraryName (chain.map (·.libraryDirs)).flatten :=
      .of_tree alike fun _ _ => FileTree.isFile_eq_of_toOption
    exact answers_mergeLists accepted .library name

/-- Two layers that list one directory in two spellings. -/
def overlapping : List Layer :=
  [ { scope := ⟨"/site/unit/litmus.toml"⟩
      toolDirs := [⟨"/site/empty"⟩, ⟨"/site/bin/."⟩], libraryDirs := [⟨"/site/lib/"⟩] },
    { scope := ⟨"/site/litmus.toml"⟩
      toolDirs := [⟨"/site/bin"⟩, ⟨"/bin"⟩], libraryDirs := [⟨"/site/lib"⟩] } ]

def twoCompilers : FileTree where
  entries :=
    [ (["bin"], .directory),
      (["bin", "llc"], .file .empty true),
      (["site"], .directory),
      (["site", "bin"], .directory),
      (["site", "bin", "llc"], .file .empty true) ]

theorem nearer_compiler_found :
    let places := (flatten overlapping).places
    twoCompilers.DenotesAlike ((overlapping.flatMap (·.toolDirs)).map (·.child "llc")) ∧
      twoCompilers.DenotesAlike ((overlapping.flatMap (·.libraryDirs)).map (·.child "libllc.so")) ∧
      places.tool twoCompilers "llc" = .ok ⟨"/site/bin/./llc"⟩ ∧
      ∃ missing, places.library twoCompilers "llc" = .error missing ∧
        missing.searched.Pairwise (Path.same · · = false) := by
  intro places
  have alike : twoCompilers.DenotesAlike
      ((overlapping.flatMap (·.toolDirs)).map (·.child "llc")) :=
    FileTree.denotesAlike_of_short (by decide +kernel)
  have alike' : twoCompilers.DenotesAlike
      ((overlapping.flatMap (·.libraryDirs)).map (·.child "libllc.so")) :=
    FileTree.denotesAlike_of_short (by decide +kernel)
  have toolName : Text.pack ((flatten overlapping).naming.executableName "llc") = "llc" := by
    decide +kernel
  have libraryName : Text.pack ((flatten overlapping).naming.libraryName "llc") = "libllc.so" := by
    decide +kernel
  obtain ⟨tools, libraries⟩ := lookup_reads_the_layers overlapping twoCompilers "llc"
  rw [toolName] at tools
  rw [libraryName] at libraries
  have found : IsFirst twoCompilers.isExecutable (overlapping.map (·.toolDirs)).flatten "llc"
      ⟨"/site/bin/./llc"⟩ :=
    ⟨[⟨"/site/empty"⟩], ⟨"/site/bin/."⟩, [⟨"/site/bin"⟩, ⟨"/bin"⟩], by decide +kernel,
      by decide +kernel, by decide +kernel, by decide +kernel⟩
  refine ⟨alike, alike', ((tools alike).first _).mpr found, ?_⟩
  cases answer : places.library twoCompilers "llc" with
  | ok path =>
    obtain ⟨list, listed, directory, inside, accepted⟩ :=
      (libraries alike').succeeds.mp ⟨path, answer⟩
    have refused : ∀ list ∈ overlapping.map (·.libraryDirs), ∀ directory ∈ list,
        twoCompilers.isFile (directory.child "libllc.so") = false := by decide +kernel
    cases (refused list listed directory inside).symm.trans accepted
  | error missing =>
    obtain ⟨-, -, joins⟩ := (libraries alike').failure missing answer
    exact ⟨missing, rfl, joins.once⟩

end Tool

end SuiteRunner
