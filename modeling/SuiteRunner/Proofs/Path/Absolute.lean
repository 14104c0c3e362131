import SuiteRunner.Proofs.Path.Components

/-!
# Absolute forms

The absolute form of a path begins at the root. For a path that is absolute already it is
another spelling of the same components.
-/

namespace SuiteRunner

theorem Text.not_mem_of_mem_split {separator : Char} {cs piece : List Char}
    (member : piece ∈ split separator cs) : separator ∉ piece := by
  -- By induction on the text, for every piece: a separator opens a new piece and is in none, any
  -- other character joins the piece in front, which had no separator either.
  induction cs generalizing piece with
  | nil =>
    rw [List.mem_singleton.mp member]
    exact List.not_mem_nil
  | cons c cs ih =>
    rw [split] at member
    split at member
    next =>
      rcases List.mem_cons.mp member with rfl | member
      · exact List.not_mem_nil
      · exact ih member
    next different =>
      split at member
      next empty => exact absurd empty (split_ne_nil separator cs)
      next first pieces shape =>
        rw [shape] at ih
        rcases List.mem_cons.mp member with rfl | member
        · exact List.not_mem_cons_of_ne_of_not_mem (Ne.symm different) (ih List.mem_cons_self)
        · exact ih (List.mem_cons_of_mem _ member)

theorem Text.mem_intercalate {separator piece : List Char} {pieces : List (List Char)}
    (member : piece ∈ pieces) {c : Char} (among : c ∈ piece) :
    c ∈ separator.intercalate pieces := by
  induction pieces with
  | nil => cases member
  | cons first pieces ih =>
    cases pieces with
    | nil =>
      rw [List.intercalate_singleton, ← List.mem_singleton.mp member]
      exact among
    | cons next pieces =>
      rw [List.intercalate_cons_cons]
      rcases List.mem_cons.mp member with rfl | member
      · exact List.mem_append_left _ (List.mem_append_left _ among)
      · exact List.mem_append_right _ (ih member)

theorem Text.exists_of_mem_intercalate {separator : List Char} {pieces : List (List Char)}
    {c : Char} (among : c ∈ separator.intercalate pieces) :
    c ∈ separator ∨ ∃ piece ∈ pieces, c ∈ piece := by
  induction pieces with
  | nil => simp at among
  | cons first pieces ih =>
    cases pieces with
    | nil => exact Or.inr ⟨first, List.mem_cons_self, by simpa using among⟩
    | cons next pieces =>
      rw [List.intercalate_cons_cons, List.append_assoc, List.mem_append, List.mem_append] at among
      rcases among with here | between | behind
      · exact Or.inr ⟨first, List.mem_cons_self, here⟩
      · exact Or.inl between
      · obtain between | ⟨piece, listed, inside⟩ := ih behind
        · exact Or.inl between
        · exact Or.inr ⟨piece, List.mem_cons_of_mem _ listed, inside⟩

/-- The pieces of a text have no other characters than the text. -/
theorem Text.mem_of_mem_split {separator : Char} {cs piece : List Char}
    (member : piece ∈ split separator cs) {c : Char} (among : c ∈ piece) : c ∈ cs := by
  rw [← Text.intercalate_split separator cs]
  exact mem_intercalate member among

namespace Path

open Files

variable {path directory absolute : Path}

/-! ### Paths that begin at the root -/

theorem text_ne_of_isAbsolute (isAbsolute : path.isAbsolute = true) : path.text ≠ "" := by
  intro empty
  simp [Path.isAbsolute, empty] at isAbsolute

theorem components_of_isAbsolute (isAbsolute : path.isAbsolute = true) :
    ∃ body, path.segments = [] :: body ∧
      path.components = .root :: body.filterMap component? := by
  obtain ⟨c, text, shape⟩ :=
    List.exists_cons_of_ne_nil (mt String.toList_eq_nil_iff.mp (text_ne_of_isAbsolute isAbsolute))
  obtain rfl : c = '/' := by simpa [Path.isAbsolute, shape] using isAbsolute
  have segments : path.segments = [] :: Text.split '/' text := by
    rw [Path.segments, shape, Text.split, if_pos rfl]
  refine ⟨_, segments, ?_⟩
  rw [components_of_segments segments fun _ => Text.split_ne_nil '/' text]
  rfl

/-- A path begins at the root if and only if its components do. -/
theorem isAbsolute_iff : path.isAbsolute = true ↔ ∃ rest, path.components = .root :: rest := by
  constructor
  · intro isAbsolute
    obtain ⟨body, -, spelled⟩ := components_of_isAbsolute isAbsolute
    exact ⟨_, spelled⟩
  · rintro ⟨rest, spelled⟩
    exact (segments_of_root spelled).1

/-- What is joined to a path that begins at the root begins there as well. -/
theorem isAbsolute_join (isAbsolute : path.isAbsolute = true) (further : Path) :
    (path.join further).isAbsolute = true := by
  obtain ⟨c, front, shape⟩ :=
    List.exists_cons_of_ne_nil (mt String.toList_eq_nil_iff.mp (text_ne_of_isAbsolute isAbsolute))
  have first : c = '/' := by simpa [Path.isAbsolute, shape] using isAbsolute
  unfold join
  split
  next other => exact other
  next => split <;> simp [Path.isAbsolute, shape, first]

theorem isAbsolute_child_of_isAbsolute (isAbsolute : path.isAbsolute = true) (text : String) :
    (path.child text).isAbsolute = true :=
  isAbsolute_join isAbsolute ⟨text⟩

/-! ### Going down by components -/

/-- A component that may stand behind the first one, with the text that denotes it. -/
def Component.IsWritten (component : Component) : Prop :=
  '/' ∉ component.text.toList ∧ component? component.text.toList = some component

theorem text_of_component? {segment : List Char} {component : Component}
    (denotes : component? segment = some component) : component.text.toList = segment := by
  unfold component? at denotes
  split at denotes
  next => cases denotes
  next =>
    split at denotes
    next up => cases denotes; rw [up]; rfl
    next => cases denotes; exact String.toList_ofList

theorem isWritten_of_component? {segment : List Char} {component : Component}
    (whole : '/' ∉ segment) (denotes : component? segment = some component) :
    component.IsWritten := by
  rw [Component.IsWritten, text_of_component? denotes]
  exact ⟨whole, denotes⟩

/-- What is written between the slashes of a path. -/
def written (path : Path) : List Component := path.segments.filterMap component?

theorem isWritten_of_mem_written {component : Component} (member : component ∈ path.written) :
    component.IsWritten := by
  obtain ⟨segment, listed, denotes⟩ := List.mem_filterMap.mp member
  exact isWritten_of_component? (Text.not_mem_of_mem_split listed) denotes

/-- The components of an absolute path are what is written in it, behind the root. -/
theorem components_eq_written (isAbsolute : path.isAbsolute = true) :
    path.components = .root :: path.written := by
  obtain ⟨body, segments, spelled⟩ := components_of_isAbsolute isAbsolute
  have silent : component? [] = none := rfl
  rw [spelled, written, segments, List.filterMap_cons_none silent]

/-- One step from an absolute path to the absolute form of a longer one. -/
def descendBy (sofar : Path) (component : Component) : Path :=
  match component with
  | .root | .here => sofar
  | component => sofar.child component.text

theorem descendBy_of_isWritten {component : Component} (written : component.IsWritten)
    (path : Path) : descendBy path component = path.child component.text := by
  cases component with
  | root => exact absurd List.mem_cons_self written.1
  | here => cases written.2
  | _ => rfl

theorem isAbsolute_foldl_descendBy (isAbsolute : path.isAbsolute = true)
    (components : List Component) : (components.foldl descendBy path).isAbsolute = true := by
  induction components generalizing path with
  | nil => exact isAbsolute
  | cons component components ih =>
    refine ih ?_
    unfold descendBy
    split
    next => exact isAbsolute
    next => exact isAbsolute
    next => exact isAbsolute_child_of_isAbsolute isAbsolute _

/-- Going down by written components adds them. -/
theorem components_foldl_descendBy (isAbsolute : path.isAbsolute = true)
    {components : List Component} (written : ∀ component ∈ components, component.IsWritten) :
    (components.foldl descendBy path).components = path.components ++ components := by
  induction components generalizing path with
  | nil => exact (List.append_nil _).symm
  | cons component components ih =>
    obtain ⟨head, tail⟩ := List.forall_mem_cons.mp written
    have spoken := text_ne_of_isAbsolute isAbsolute
    have below := isAbsolute_child_of_isAbsolute isAbsolute component.text
    rw [List.foldl_cons, descendBy_of_isWritten head, ih below tail,
      components_child_of_spoken spoken head.1 head.2, List.append_assoc, List.singleton_append]

theorem components_child_empty (spoken : path.text ≠ "") :
    (path.child "").components = path.components := by
  have nothing : (⟨""⟩ : Path).segments.filterMap component? = [] := rfl
  rw [child, components_join_of_spoken rfl spoken, nothing, List.append_nil]

/-! ### Absolute forms -/

theorem isAbsolute_rootText (path : Path) : (⟨path.rootText⟩ : Path).isAbsolute = true := by
  unfold rootText
  split <;> rfl

theorem components_rootText (path : Path) : (⟨path.rootText⟩ : Path).components = [.root] := by
  unfold rootText
  split <;> rfl

/-- The path with a slash at its end, if there is to be one. -/
def withSlash (path : Path) (slash : Bool) : Path := if slash then path.child "" else path

theorem withSlash_true (path : Path) : path.withSlash true = path.child "" := rfl

/-- The text ends in a slash. -/
def endsInSlash (path : Path) : Bool := path.text.toList.getLast? == some '/'

/-- The absolute form starts at the root or in the directory, goes down, and ends in a slash if the
path does. -/
theorem absolute?_of_spoken (spoken : path.text ≠ "") (directory : Path) :
    absolute? directory path = some ((path.components.foldl descendBy
      (if path.isAbsolute then ⟨path.rootText⟩ else directory)).withSlash path.endsInSlash) := by
  rw [absolute?, if_neg (by simpa using spoken)]
  rfl

theorem spoken_of_absolute? (made : absolute? directory path = some absolute) :
    path.text ≠ "" := by
  intro empty
  simp [absolute?, empty] at made

theorem absolute?_eq_some (made : absolute? directory path = some absolute) :
    ∃ joined : Path,
      joined = path.components.foldl descendBy
        (if path.isAbsolute then ⟨path.rootText⟩ else directory) ∧
      absolute = joined.withSlash path.endsInSlash := by
  rw [absolute?_of_spoken (spoken_of_absolute? made)] at made
  exact ⟨_, rfl, (Option.some.inj made).symm⟩

/-- Going down from an absolute path puts a slash in front of the name, unless there is one. -/
theorem text_child {name : String} (isAbsolute : path.isAbsolute = true)
    (whole : '/' ∉ name.toList) :
    (path.child name).text =
      path.text ++ ((if path.endsInSlash then "" else "/") ++ name) := by
  have spoken := text_ne_of_isAbsolute isAbsolute
  simp only [child, join, isAbsolute_of_whole whole, Bool.false_eq_true, if_false]
  by_cases slash : path.text.toList.getLast? = some '/'
  · simp [slash, endsInSlash]
  · simp [slash, spoken, endsInSlash, String.append_assoc]

theorem mem_child {name : String} (isAbsolute : path.isAbsolute = true)
    (whole : '/' ∉ name.toList) {c : Char} (other : c ≠ '/')
    (among : c ∈ (path.child name).text.toList) : c ∈ path.text.toList ∨ c ∈ name.toList := by
  rw [text_child isAbsolute whole, String.toList_append, String.toList_append] at among
  split at among <;> simpa [other] using among

theorem isAbsolute_withSlash (isAbsolute : path.isAbsolute = true) (slash : Bool) :
    (path.withSlash slash).isAbsolute = true := by
  cases slash with
  | false => exact isAbsolute
  | true => exact isAbsolute_child_of_isAbsolute isAbsolute ""

theorem components_withSlash (spoken : path.text ≠ "") (slash : Bool) :
    (path.withSlash slash).components = path.components := by
  cases slash with
  | false => rfl
  | true => exact components_child_empty spoken

theorem isAbsolute_of_absolute? (rooted : directory.isAbsolute = true)
    (made : absolute? directory path = some absolute) : absolute.isAbsolute = true := by
  obtain ⟨joined, rfl, spelled⟩ := absolute?_eq_some made
  have start : (if path.isAbsolute then (⟨path.rootText⟩ : Path) else directory).isAbsolute =
      true := by
    split
    next => exact isAbsolute_rootText path
    next => exact rooted
  rw [spelled]
  exact isAbsolute_withSlash (isAbsolute_foldl_descendBy start path.components) _

/-- The absolute form of an absolute path has the components of the path. -/
theorem components_of_absolute? (isAbsolute : path.isAbsolute = true)
    (made : absolute? directory path = some absolute) :
    absolute.components = path.components := by
  obtain ⟨joined, shape, spelled⟩ := absolute?_eq_some made
  rw [if_pos isAbsolute, components_eq_written isAbsolute, List.foldl_cons] at shape
  have root := isAbsolute_rootText path
  have same : joined.components = path.components := by
    rw [shape, components_eq_written isAbsolute]
    exact (components_foldl_descendBy root fun _ => isWritten_of_mem_written).trans
      (by rw [components_rootText]; rfl)
  have joinedAbsolute : joined.isAbsolute = true := by
    rw [shape]
    exact isAbsolute_foldl_descendBy root _
  rw [spelled, components_withSlash (text_ne_of_isAbsolute joinedAbsolute), same]

/-! ### The absolute form of an absolute form -/

theorem isWritten_of_isName {name : String} (named : IsName name) :
    (Component.name name).IsWritten :=
  ⟨named.whole, named.component?⟩

theorem written_child {name : String} (isAbsolute : path.isAbsolute = true)
    (named : IsName name) : (path.child name).written = path.written ++ [.name name] := by
  have below := components_child path named
  rw [components_eq_written (isAbsolute_child_of_isAbsolute isAbsolute name),
    components_eq_written isAbsolute] at below
  exact (List.cons.inj below).2

/-- Going down skips what else a path denotes, the root and a leading dot. -/
theorem foldl_descendBy_components (spoken : path.text ≠ "") (base : Path) :
    path.components.foldl descendBy base = path.written.foldl descendBy base := by
  obtain ⟨segment, body, segments, -, spelled⟩ := segments_of_spoken spoken
  rw [spelled, written, segments, start]
  split
  next empty => rw [empty]; rfl
  next =>
    split
    next here => rw [here]; rfl
    next =>
      rw [List.filterMap_cons]
      cases denotes : component? segment <;> simp

/-- The path of a place is what going down from the root comes to. -/
theorem foldl_descendBy_names {place : Place} (valid : IsPlace place) :
    (place.map Component.name).foldl descendBy ⟨"/"⟩ = Place.path place := by
  induction place using List.reverseRecOn with
  | nil => rfl
  | append_singleton place name ih =>
    have above : IsPlace place := valid.of_prefix (List.prefix_append _ _)
    have named := valid name (List.mem_append_right _ List.mem_cons_self)
    rw [List.map_append, List.foldl_append, ih above, ← Place.child_path above named]
    rfl

/-- An absolute form begins with one slash or two and goes down from there, for a relative path
through the directory. -/
theorem exists_of_absolute? {place : Place} (valid : IsPlace place)
    (made : absolute? (Place.path place) path = some absolute) :
    ∃ root names, (root = "/" ∨ root = "//") ∧
      names = (if path.isAbsolute then [] else place.map Component.name) ++ path.written ∧
      (∀ component ∈ names, component.IsWritten) ∧
      absolute = (names.foldl descendBy ⟨root⟩).withSlash path.endsInSlash := by
  have spoken := spoken_of_absolute? made
  rw [absolute?_of_spoken spoken, foldl_descendBy_components spoken] at made
  by_cases isAbsolute : path.isAbsolute = true
  · rw [if_pos isAbsolute] at made ⊢
    -- An absolute path speaks for itself; the place where it is resolved is forgotten.
    refine ⟨path.rootText, path.written, ?_, rfl, fun _ => isWritten_of_mem_written,
      (Option.some.inj made).symm⟩
    unfold rootText
    split <;> simp
  · rw [if_neg isAbsolute, ← foldl_descendBy_names valid, ← List.foldl_append] at made
    have spelled := (Option.some.inj made).symm
    rw [if_neg isAbsolute]
    refine ⟨"/", place.map Component.name ++ path.written, .inl rfl, rfl, ?_, spelled⟩
    refine List.forall_mem_append.mpr ⟨fun component member => ?_, fun _ =>
      isWritten_of_mem_written⟩
    -- A name of the place is a component that is written, since a place holds names only.
    obtain ⟨name, listed, rfl⟩ := List.mem_map.mp member
    exact isWritten_of_isName (valid name listed)

/-- The text goes on behind the slashes it begins with. -/
def BeginsWith (path : Path) (root : String) : Prop :=
  ∃ rest, path.text.toList = root.toList ++ rest ∧ rest.head? ≠ some '/'

theorem BeginsWith.child {root name : String} (begins : path.BeginsWith root)
    (slashes : root = "/" ∨ root = "//") (whole : '/' ∉ name.toList) :
    (path.child name).BeginsWith root := by
  obtain ⟨rest, text, further⟩ := begins
  have relative := isAbsolute_of_whole whole
  have starts : name.toList.head? ≠ some '/' := fun starts => whole (List.mem_of_mem_head? starts)
  -- Behind a bare root the name follows at once, and behind anything else with a slash between, or
  -- without one where there already is one.
  simp only [Path.child, join, relative, Bool.false_eq_true, if_false]
  cases rest with
  | nil =>
    refine ⟨name.toList, ?_, starts⟩
    have ends : path.text.toList.getLast? = some '/' := by
      rcases slashes with rfl | rfl <;> simp [text]
    rw [if_pos (by simp [ends])]
    simp [text]
  | cons c rest =>
    split
    next => exact ⟨c :: rest ++ name.toList, by simp [text], further⟩
    next => exact ⟨c :: rest ++ '/' :: name.toList, by simp [text], further⟩

theorem BeginsWith.descend {root : String} (begins : path.BeginsWith root)
    (slashes : root = "/" ∨ root = "//") {written : List Component}
    (all : ∀ component ∈ written, component.IsWritten) :
    (written.foldl descendBy path).BeginsWith root := by
  induction written generalizing path with
  | nil => exact begins
  | cons component written ih =>
    obtain ⟨head, tail⟩ := List.forall_mem_cons.mp all
    rw [List.foldl_cons, descendBy_of_isWritten head]
    exact ih (begins.child slashes head.1) tail

theorem BeginsWith.rootText {root : String} (begins : path.BeginsWith root)
    (slashes : root = "/" ∨ root = "//") : path.rootText = root := by
  obtain ⟨rest, text, further⟩ := begins
  rcases slashes with rfl | rfl
  · cases rest with
    | nil => simp [Path.rootText, text]
    | cons c rest =>
      have different : c ≠ '/' := by simpa using further
      simp [Path.rootText, text, different]
  · cases rest with
    | nil => simp [Path.rootText, text]
    | cons c rest =>
      have different : c ≠ '/' := by simpa using further
      simp [Path.rootText, text, different]

theorem BeginsWith.withSlash {root : String} (begins : path.BeginsWith root)
    (slashes : root = "/" ∨ root = "//") (slash : Bool) :
    (path.withSlash slash).BeginsWith root := by
  cases slash with
  | false => exact begins
  | true =>
    have empty : '/' ∉ "".toList := by simp
    rw [withSlash_true]
    exact begins.child slashes empty

/-- A slash at the end is kept, and no second one is put behind it. -/
theorem withSlash_endsInSlash (spoken : path.text ≠ "") (slash : Bool) :
    path.withSlash (path.withSlash slash).endsInSlash = path.withSlash slash := by
  by_cases ends : path.text.toList.getLast? = some '/'
  · have idle (again : Bool) : path.withSlash again = path := by
      cases again <;> simp [Path.withSlash, child, join, isAbsolute, ends]
    rw [idle, idle]
  · cases slash <;> simp [Path.withSlash, endsInSlash, child, join, isAbsolute, ends, spoken]

theorem isAbsolute_of_slashes {root : String} (slashes : root = "/" ∨ root = "//") :
    (⟨root⟩ : Path).isAbsolute = true := by
  rcases slashes with rfl | rfl <;> rfl

theorem components_of_slashes {root : String} (slashes : root = "/" ∨ root = "//") :
    (⟨root⟩ : Path).components = [.root] := by
  rcases slashes with rfl | rfl <;> rfl

theorem components_descend_slashes {root : String} (slashes : root = "/" ∨ root = "//")
    {names : List Component} (all : ∀ component ∈ names, component.IsWritten) :
    (names.foldl descendBy ⟨root⟩).components = .root :: names := by
  rw [components_foldl_descendBy (isAbsolute_of_slashes slashes) all,
    components_of_slashes slashes]
  rfl

/-- The components of the absolute form, for a relative path those of the directory first. -/
theorem components_absolute? {place : Place} (valid : IsPlace place)
    (made : absolute? (Place.path place) path = some absolute) :
    absolute.components =
      .root :: ((if path.isAbsolute then [] else place.map Component.name) ++ path.written) := by
  obtain ⟨root, names, slashes, rfl, all, rfl⟩ := exists_of_absolute? valid made
  have rooted := isAbsolute_foldl_descendBy (isAbsolute_of_slashes slashes)
  rw [components_withSlash (text_ne_of_isAbsolute (rooted _)),
    components_descend_slashes slashes all]

/-- An absolute form is its own absolute form, in whatever directory. -/
theorem absolute?_absolute {place : Place} (valid : IsPlace place)
    (made : absolute? (Place.path place) path = some absolute) (other : Path) :
    absolute? other absolute = some absolute := by
  obtain ⟨root, names, slashes, -, all, rfl⟩ := exists_of_absolute? valid made
  have rooted := isAbsolute_foldl_descendBy (isAbsolute_of_slashes slashes) names
  have spoken := text_ne_of_isAbsolute rooted
  have begins : (names.foldl descendBy ⟨root⟩).BeginsWith root :=
    BeginsWith.descend ⟨[], by simp, by simp⟩ slashes all
  have first := (begins.withSlash slashes path.endsInSlash).rootText slashes
  have isAbsolute := isAbsolute_withSlash rooted path.endsInSlash
  have components := (components_withSlash spoken path.endsInSlash).trans
    (components_descend_slashes slashes all)
  rw [absolute?_of_spoken (text_ne_of_isAbsolute isAbsolute), if_pos isAbsolute, first, components,
    List.foldl_cons, descendBy, withSlash_endsInSlash spoken]

/-! ### Characters -/

theorem mem_of_mem_written {component : Component} (member : component ∈ path.written) {c : Char}
    (among : c ∈ component.text.toList) : c ∈ path.text.toList := by
  obtain ⟨segment, listed, denotes⟩ := List.mem_filterMap.mp member
  rw [text_of_component? denotes] at among
  exact Text.mem_of_mem_split listed among

theorem mem_descend {names : List Component} (isAbsolute : path.isAbsolute = true)
    (all : ∀ component ∈ names, component.IsWritten) {c : Char} (other : c ≠ '/')
    (among : c ∈ (names.foldl descendBy path).text.toList) :
    c ∈ path.text.toList ∨ ∃ component ∈ names, c ∈ component.text.toList := by
  induction names generalizing path with
  | nil => exact .inl among
  | cons component names ih =>
    obtain ⟨head, tail⟩ := List.forall_mem_cons.mp all
    rw [List.foldl_cons, descendBy_of_isWritten head] at among
    rcases ih (isAbsolute_child_of_isAbsolute isAbsolute _) tail among with here | further
    · rcases mem_child isAbsolute head.1 other here with here | here
      · exact .inl here
      · exact .inr ⟨component, List.mem_cons_self, here⟩
    · obtain ⟨later, member, here⟩ := further
      exact .inr ⟨later, List.mem_cons_of_mem _ member, here⟩

/-- Apart from slashes the absolute form has the characters of the path and of the directory. -/
theorem mem_of_mem_absolute? {place : Place} (valid : IsPlace place)
    (made : absolute? (Place.path place) path = some absolute) {c : Char} (other : c ≠ '/')
    (among : c ∈ absolute.text.toList) :
    c ∈ (Place.path place).text.toList ∨ c ∈ path.text.toList := by
  obtain ⟨root, names, slashes, rfl, all, rfl⟩ := exists_of_absolute? valid made
  have rooted := isAbsolute_of_slashes slashes
  -- A slash at the end adds no character but itself.
  have inner : c ∈ (((if path.isAbsolute then [] else place.map Component.name) ++
      path.written).foldl descendBy ⟨root⟩).text.toList := by
    cases slash : path.endsInSlash with
    | false => rwa [slash] at among
    | true =>
      have empty : '/' ∉ "".toList := by simp
      rw [slash, withSlash_true] at among
      have either := mem_child (isAbsolute_foldl_descendBy rooted _) empty other among
      simpa using either
  rcases mem_descend rooted all other inner with here | ⟨component, member, here⟩
  · rcases slashes with rfl | rfl <;> simp [other] at here
  · rcases List.mem_append.mp member with member | member
    · split at member
      next => cases member
      next =>
        obtain ⟨name, listed, rfl⟩ := List.mem_map.mp member
        left
        rw [Place.toList_path]
        exact List.mem_cons_of_mem _ (Text.mem_intercalate (List.mem_map_of_mem listed) here)
    · exact .inr (mem_of_mem_written member here)

end Path

end SuiteRunner
