import SuiteRunner.Discovery.Walk
import SuiteRunner.Proofs.Path.Joining
import SuiteRunner.Proofs.Path.Shown

/-!
# Scratch paths

The scratch path of a test is its relative path under `Output` in the execution root, with a suffix
to the file name. No component is lost on the way and the suffix is the same for all tests, but it
is put to what the file name is shown as, and `%t` stands for what the whole path is shown as. So
the relative path can be read off again if it is UTF-8. Names that are not are told apart only as
far as they are shown differently: of two tests in one directory whose names are shown alike, each
overwrites what the other one writes.
-/

namespace SuiteRunner

open Files (IsName)

/-- The path consists of names, one or more. -/
structure Path.IsInner (path : Path) : Prop where
  nonempty : path.components ≠ []
  names : ∀ component ∈ path.components, ∃ name, component = .name name

namespace Path.IsInner

variable {path : Path}

instance : Decidable path.IsInner :=
  decidable_of_iff (path.components ≠ [] ∧ path.components.all fun
      | .name _ => true
      | _ => false) (by
    constructor
    · rintro ⟨nonempty, all⟩
      refine ⟨nonempty, fun component member => ?_⟩
      have named := List.all_eq_true.mp all component member
      cases component with
      | name text => exact ⟨text, rfl⟩
      | _ => cases named
    · intro inner
      refine ⟨inner.nonempty, List.all_eq_true.mpr fun component member => ?_⟩
      obtain ⟨name, rfl⟩ := inner.names component member
      rfl)

theorem components_eq_written (inner : path.IsInner) : path.components = path.written :=
  components_eq_written_of_names inner.names

/-- There is a last name, in which there is no slash. -/
theorem exists_concat (inner : path.IsInner) :
    ∃ before name, path.components = before ++ [.name name] ∧ '/' ∉ name.toList := by
  obtain ⟨before, last, split⟩ :=
    (List.eq_nil_or_concat path.components).resolve_left inner.nonempty
  have member : last ∈ path.components := by simp [split]
  obtain ⟨name, rfl⟩ := inner.names last member
  refine ⟨before, name, by simpa using split, ?_⟩
  rw [inner.components_eq_written] at member
  exact (isWritten_of_mem_written member).1

end Path.IsInner

namespace Substitution

variable {relative relative' source source' execRoot : Path} {before : List Path.Component}
  {name : String}

namespace TestPaths

/-! ### The name of the scratch file -/

/-- With the suffix anything without a slash is a name. -/
theorem isName_suffixed (whole : '/' ∉ name.toList) : IsName (name ++ ".tmp") := by
  have long : 4 ≤ (name ++ ".tmp").toList.length := by simp
  refine ⟨?_, ?_, ?_⟩
  · rw [← Bool.not_eq_true]
    intro silent
    have short : (name ++ ".tmp").toList = [] ∨ (name ++ ".tmp").toList = ['.'] := by
      simpa [Path.isSilent] using silent
    rcases short with short | short <;> rw [short] at long <;> simp at long
  · intro up
    rw [up] at long
    simp at long
  · simp [whole]

theorem isName_scratchName (whole : '/' ∉ name.toList) : IsName (scratchName name) :=
  Path.keepsSegments_pack.isName
    (isName_suffixed fun among => whole (Text.slash_mem_of_shown among))

theorem scratchName_inj {name' : String} :
    scratchName name = scratchName name' ↔ Text.shown name = Text.shown name' := by
  simp [scratchName, Text.pack_inj]

/-- What the suffix was put to is shown as it is. -/
theorem shown_scratchName (name : String) :
    Text.shown (scratchName name) = Text.shown name ++ ".tmp" := Text.shown_pack _

/-! ### Where the scratch path lies -/

theorem components_outputRoot (execRoot : Path) :
    (execRoot.child "Output").components = execRoot.components ++ [.name "Output"] :=
  Path.components_child execRoot (by decide)

theorem spoken_output (execRoot : Path) : (execRoot.child "Output").text ≠ "" := by
  intro empty
  have under := components_outputRoot execRoot
  rw [Path.components, Path.segments, empty] at under
  simp [Text.split, Path.leading, Path.component?, Path.isSilent] at under

/-- A path of names is put under `Output` as it is. -/
theorem components_under (execRoot : Path) {inside : Path}
    (named : ∀ component ∈ inside.components, ∃ name, component = .name name) :
    ((execRoot.child "Output").join inside).components =
      execRoot.components ++ .name "Output" :: inside.components := by
  rw [Path.components_join (Path.relative_of_names named) (spoken_output execRoot),
    components_outputRoot, Path.components_eq_written_of_names named, List.append_assoc,
    List.singleton_append]

theorem tempDir_eq (source relative execRoot : Path) :
    (ofTest source relative execRoot).tempDir =
      (ofTest source relative execRoot).temp.parent?.getD execRoot := by
  rw [ofTest]

theorem components_temp (source execRoot : Path) (inner : relative.IsInner)
    (spelled : relative.components = before ++ [.name name]) (whole : '/' ∉ name.toList) :
    (ofTest source relative execRoot).temp.components =
      execRoot.components ++ .name "Output" :: before ++ [.name (scratchName name)] := by
  have output : ((execRoot.child "Output").join relative).components =
      execRoot.components ++ .name "Output" :: before ++ [.name name] := by
    rw [components_under execRoot inner.names, spelled, List.append_assoc, List.cons_append]
  have named := Path.fileName?_of_components output
  rw [ofTest, named]
  exact Path.components_withFileName output (isName_scratchName whole)

/-- The scratch path lies in its directory. -/
theorem parent?_temp (source execRoot : Path) (inner : relative.IsInner)
    (spelled : relative.components = before ++ [.name name]) (whole : '/' ∉ name.toList) :
    (ofTest source relative execRoot).temp.parent? =
        some (ofTest source relative execRoot).tempDir ∧
      (ofTest source relative execRoot).tempDir.components =
        execRoot.components ++ .name "Output" :: before := by
  have temp := components_temp source execRoot inner spelled whole
  obtain ⟨parent, found, above⟩ := Path.parent?_of_components temp
  rw [tempDir_eq, found, Option.getD_some]
  exact ⟨rfl, above⟩

/-- The directory is where that of the test would be under `Output`. -/
theorem tempDir_same (source execRoot : Path) (inner : relative.IsInner) :
    ∃ parent, relative.parent? = some parent ∧
      (ofTest source relative execRoot).tempDir.same
        ((execRoot.child "Output").join parent) = true := by
  obtain ⟨before, name, spelled, whole⟩ := inner.exists_concat
  obtain ⟨-, directory⟩ := parent?_temp source execRoot inner spelled whole
  obtain ⟨parent, found, rest⟩ := Path.parent?_of_components spelled
  have named : ∀ component ∈ parent.components, ∃ name, component = .name name := by
    rw [rest]
    intro component member
    exact inner.names component (spelled ▸ List.mem_append_left _ member)
  refine ⟨parent, found, ?_⟩
  rw [Path.same_iff, directory, components_under execRoot named, rest]

/-! ### What is shared -/

/-- The paths differ in their last names at most, and these are shown alike. -/
def Namesakes (relative relative' : Path) : Prop :=
  ∃ before name name', relative.components = before ++ [.name name] ∧
    relative'.components = before ++ [.name name'] ∧ Text.shown name = Text.shown name'

/-- The scratch path gives away the directory of the relative path and what its name is shown as. -/
theorem temp_same_iff (source source' execRoot : Path) (inner : relative.IsInner)
    (inner' : relative'.IsInner) :
    (ofTest source relative execRoot).temp.same (ofTest source' relative' execRoot).temp = true ↔
      Namesakes relative relative' := by
  -- Both paths end with a name, to which the suffix is added; the components in front are left as
  -- they are.
  obtain ⟨before, name, spelled, whole⟩ := inner.exists_concat
  obtain ⟨before', name', spelled', whole'⟩ := inner'.exists_concat
  have temp := components_temp source execRoot inner spelled whole
  have temp' := components_temp source' execRoot inner' spelled' whole'
  rw [Path.same_iff, temp, temp']
  constructor
  · intro same
    obtain ⟨front, last⟩ := List.append_inj' same (by simp only [List.length_singleton])
    have befores : before = before' := by simpa using front
    have names : scratchName name = scratchName name' := by simpa using last
    exact ⟨before, name, name', spelled, befores ▸ spelled', scratchName_inj.mp names⟩
  · rintro ⟨front, last, last', ends, ends', alike⟩
    obtain ⟨befores, names⟩ := List.append_inj' (spelled.symm.trans ends) rfl
    obtain ⟨befores', names'⟩ := List.append_inj' (spelled'.symm.trans ends') rfl
    have names : name = last := by simpa using names
    have names' : name' = last' := by simpa using names'
    rw [befores, befores', names, names', scratchName_inj.mpr alike]

theorem map_concat_eq_iff {change : String → String} {before' : List Path.Component}
    {name' : String} :
    (before ++ [Path.Component.name name]).map (Path.Component.map change) =
        (before' ++ [Path.Component.name name']).map (Path.Component.map change) ↔
      before.map (Path.Component.map change) = before'.map (Path.Component.map change) ∧
        change name = change name' := by
  rw [List.map_append, List.map_append]
  constructor
  · intro same
    obtain ⟨befores, last⟩ := List.append_inj' same rfl
    exact ⟨befores, by simpa [Path.Component.map] using last⟩
  · rintro ⟨befores, names⟩
    rw [befores]
    simp [Path.Component.map, names]

/-- What `%t` stands for gives away what the relative path is shown as. -/
theorem temp_seen_same_iff (source source' execRoot : Path) (inner : relative.IsInner)
    (inner' : relative'.IsInner) :
    (ofTest source relative execRoot).temp.seen.same
        (ofTest source' relative' execRoot).temp.seen = true ↔
      relative.seen.same relative'.seen = true := by
  obtain ⟨before, name, spelled, whole⟩ := inner.exists_concat
  obtain ⟨before', name', spelled', whole'⟩ := inner'.exists_concat
  have temp := components_temp source execRoot inner spelled whole
  have temp' := components_temp source' execRoot inner' spelled' whole'
  rw [Path.same_iff, Path.same_iff, Path.components_seen, Path.components_seen,
    Path.components_seen, Path.components_seen, temp, temp', spelled, spelled', map_concat_eq_iff,
    map_concat_eq_iff]
  simp [shown_scratchName, Text.pack_inj]

theorem temp_of_rule {paths : TestPaths} {text : String} (member : ⟨"%t", text⟩ ∈ paths.rules) :
    text = paths.temp.shown := by
  simpa [rules, placeholder] using member

/-- Under one execution root the scratch paths of two tests are the same if and only if the tests
are in one directory and their names are shown alike, and `%t` stands for the same path in both if
and only if all names of their relative paths are shown alike. So tests whose relative paths are
UTF-8 share neither unless the relative paths are the same. The scratch path lies in its directory,
which is where the directory of the test would be under `Output`. -/
theorem scratch_path_shared_iff (source source' execRoot : Path) (inner : relative.IsInner)
    (inner' : relative'.IsInner) :
    let paths := ofTest source relative execRoot
    let paths' := ofTest source' relative' execRoot
    (paths.temp.same paths'.temp = true ↔ Namesakes relative relative') ∧
      (paths.temp.seen.same paths'.temp.seen = true ↔
        relative.seen.same relative'.seen = true) ∧
      (relative.seen = relative → relative'.seen = relative' →
        (paths.temp.same paths'.temp = true ↔ relative.same relative' = true) ∧
        ∀ text, ⟨"%t", text⟩ ∈ paths.rules → ⟨"%t", text⟩ ∈ paths'.rules →
          relative.same relative' = true) ∧
      paths.temp.parent? = some paths.tempDir ∧
      (∃ name, paths.temp.components = paths.tempDir.components ++ [.name name]) ∧
      ∃ parent, relative.parent? = some parent ∧
        paths.tempDir.same ((execRoot.child "Output").join parent) = true := by
  intro paths paths'
  have shared : paths.temp.same paths'.temp = true ↔ Namesakes relative relative' :=
    temp_same_iff source source' execRoot inner inner'
  have told : paths.temp.seen.same paths'.temp.seen = true ↔
      relative.seen.same relative'.seen = true :=
    temp_seen_same_iff source source' execRoot inner inner'
  obtain ⟨before, name, spelled, whole⟩ := inner.exists_concat
  obtain ⟨above, directory⟩ := parent?_temp source execRoot inner spelled whole
  refine ⟨shared, told, fun plain plain' => ⟨⟨fun same => ?_, fun same => ?_⟩,
    fun text member member' => ?_⟩, above, ⟨scratchName name, ?_⟩,
    tempDir_same source execRoot inner⟩
  · rw [plain, plain'] at told
    exact told.mp (Path.seen_same same)
  · exact shared.mpr ⟨before, name, name, spelled, Path.same_iff.mp same ▸ spelled, rfl⟩
  · -- one text is one path
    rw [plain, plain'] at told
    apply told.mp
    rw [Path.seen, Path.seen, ← temp_of_rule member, ← temp_of_rule member']
    exact Path.same_iff.mpr rfl
  · rw [directory]
    exact components_temp source execRoot inner spelled whole

/-- A test whose name ends like a scratch path. -/
theorem scratch_path_of_namesake :
    let paths := ofTest ⟨"/suite/d/x"⟩ ⟨"d/x"⟩ ⟨"build/"⟩
    let paths' := ofTest ⟨"/suite/d/x.tmp"⟩ ⟨"d//x.tmp"⟩ ⟨"build/"⟩
    Path.IsInner ⟨"d/x"⟩ ∧ Path.IsInner ⟨"d//x.tmp"⟩ ∧
      paths.temp = ⟨"build/Output/d/x.tmp"⟩ ∧ paths'.temp = ⟨"build/Output/d/x.tmp.tmp"⟩ ∧
      paths.tempDir.same paths'.tempDir = true ∧ paths.temp.same paths'.temp = false := by
  intro paths paths'
  have inner : Path.IsInner ⟨"d/x"⟩ := by decide
  have inner' : Path.IsInner ⟨"d//x.tmp"⟩ := by decide
  have plain : (⟨"d/x"⟩ : Path).seen = ⟨"d/x"⟩ := Path.seen_ofText "d/x"
  have plain' : (⟨"d//x.tmp"⟩ : Path).seen = ⟨"d//x.tmp"⟩ := Path.seen_ofText "d//x.tmp"
  obtain ⟨-, -, unique, -⟩ :=
    scratch_path_shared_iff ⟨"/suite/d/x"⟩ ⟨"/suite/d/x.tmp"⟩ ⟨"build/"⟩ inner inner'
  have unique := (unique plain plain').1
  refine ⟨inner, inner', by decide +kernel, by decide +kernel, by decide +kernel, ?_⟩
  rw [← Bool.not_eq_true]
  exact mt unique.mp (by decide)

/-- Two tests in one directory with names that are one byte and a suffix, the byte being none that a
character can begin with. -/
def brokenTree : Files.FileTree where
  entries :=
    [ (["litmus.toml"], .file "suffixes = [\".t\"]\n".toUTF8 false),
      (["\xfe.t"], .file "RUN: true\n".toUTF8 false),
      (["\xff.t"], .file "RUN: true\n".toUTF8 false) ]

/-- They are two tests, of which each has the scratch path of the other one. -/
theorem broken_names_share :
    let entry : Path := ⟨"/litmus.toml"⟩
    let cascade := (({} : Config.Cascade).load brokenTree entry).1
    let paths := ofTest ⟨"/\xfe.t"⟩ ⟨"\xfe.t"⟩ ⟨"/"⟩
    let paths' := ofTest ⟨"/\xff.t"⟩ ⟨"\xff.t"⟩ ⟨"/"⟩
    ((Discovery.discover brokenTree cascade entry {}).toOption.map fun tests =>
        tests.map fun test => (test.path, test.relative, test.config.execRoot)) =
      some [(⟨"/\xfe.t"⟩, ⟨"\xfe.t"⟩, ⟨"/"⟩), (⟨"/\xff.t"⟩, ⟨"\xff.t"⟩, ⟨"/"⟩)] ∧
      Path.IsInner ⟨"\xfe.t"⟩ ∧ Path.IsInner ⟨"\xff.t"⟩ ∧
      (⟨"\xfe.t"⟩ : Path).same ⟨"\xff.t"⟩ = false ∧ paths.temp.same paths'.temp = true ∧
      ∃ text, ⟨"%t", text⟩ ∈ paths.rules ∧ ⟨"%t", text⟩ ∈ paths'.rules := by
  intro entry cascade paths paths'
  refine ⟨by decide +kernel, by decide, by decide, by decide, by decide +kernel,
    "/Output/\uFFFD.t.tmp", by decide +kernel, by decide +kernel⟩

end TestPaths

end Substitution

end SuiteRunner
