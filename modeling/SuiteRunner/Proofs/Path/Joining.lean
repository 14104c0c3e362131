import SuiteRunner.Proofs.Path.Parents

/-!
# Joining paths and cutting them again

What a path is joined to and what its last component is can be told from the components, however
the path is spelled: joining adds what is written in the further path, and the parent of a path
that ends in a name is the path without that name. So two spellings of one path go on alike.
-/

namespace SuiteRunner.Path

open Files

variable {path other base further : Path} {before : List Component} {name : String}

theorem same_comm (a b : Path) : a.same b = b.same a := by
  rw [Bool.eq_iff_iff, same_iff, same_iff, eq_comm]

/-! ### What is written in a path -/

theorem not_isWritten_of_lead {component : Component}
    (lead : component = .root ∨ component = .here) : ¬ component.IsWritten := by
  rintro ⟨whole, denotes⟩
  rcases lead with rfl | rfl
  · exact whole List.mem_cons_self
  · cases denotes

/-- The components are what is written in the path, apart from the root or a dot in front. -/
theorem written_eq_filter (path : Path) : path.written =
    path.components.filter fun component => component ≠ .root ∧ component ≠ .here := by
  -- What is written never is a root or a dot in front, so only the leading component can be
  -- filtered away.
  have kept : path.written.filter (fun component => component ≠ .root ∧ component ≠ .here) =
      path.written := by
    rw [List.filter_eq_self]
    intro component member
    have lead := mt not_isWritten_of_lead (not_not.mpr (isWritten_of_mem_written member))
    simpa using lead
  by_cases empty : path.text = ""
  · obtain ⟨text⟩ := path
    subst empty
    rfl
  · obtain ⟨segment, body, segments, -, spelled⟩ := segments_of_spoken empty
    rw [← kept, spelled, written, segments, start]
    split
    next root => simp [root, component?, isSilent]
    next =>
      split
      next here => simp [here, component?, isSilent]
      next => cases denotes : component? segment <;> simp [denotes]

theorem written_eq_of_same (same : path.same other = true) : path.written = other.written := by
  rw [written_eq_filter, written_eq_filter, same_iff.mp same]

theorem text_eq_nil_of_components (nothing : path.components = []) : path.text = "" := by
  by_contra spoken
  obtain ⟨segment, body, -, -, spelled⟩ := segments_of_spoken spoken
  rw [spelled] at nothing
  obtain ⟨first, -⟩ := List.append_eq_nil_iff.mp nothing
  by_cases empty : segment = []
  · simp [start, empty] at first
  · obtain ⟨component, -, single⟩ := head?_start empty
    rw [single] at first
    cases first

/-- No spelling of a path but one is empty. -/
theorem spoken_of_same (same : path.same other = true) (spoken : path.text ≠ "") :
    other.text ≠ "" := by
  intro empty
  obtain ⟨text⟩ := other
  subst empty
  exact spoken (text_eq_nil_of_components (same_iff.mp same))

theorem isAbsolute_eq_of_same (same : path.same other = true) :
    path.isAbsolute = other.isAbsolute := by
  rw [Bool.eq_iff_iff, isAbsolute_iff, isAbsolute_iff, same_iff.mp same]

/-- A character that means nothing to the spelling stands in what is written. -/
theorem mem_text_iff {c : Char} (slash : c ≠ '/') (dot : c ≠ '.') :
    c ∈ path.text.toList ↔ ∃ component ∈ path.written, c ∈ component.text.toList := by
  constructor
  · intro among
    rw [← Text.intercalate_split '/' path.text.toList] at among
    obtain between | ⟨segment, listed, inside⟩ := Text.exists_of_mem_intercalate among
    · exact absurd (List.mem_singleton.mp between) slash
    · -- a silent segment has no such character
      have spoken : isSilent segment = false := by
        rw [← Bool.not_eq_true]
        intro silent
        have shape : segment = [] ∨ segment = ['.'] := by simpa [isSilent] using silent
        rcases shape with rfl | rfl
        · cases inside
        · exact dot (List.mem_singleton.mp inside)
      obtain ⟨component, denotes⟩ : ∃ component, component? segment = some component := by
        rw [← Option.ne_none_iff_exists', ne_eq, ← isSilent_iff, spoken]
        exact Bool.false_ne_true
      refine ⟨component, List.mem_filterMap.mpr ⟨segment, listed, denotes⟩, ?_⟩
      rwa [text_of_component? denotes]
  · rintro ⟨component, member, inside⟩
    exact mem_of_mem_written member inside

/-! ### Joining -/

/-- Going down by a relative path adds what is written in it. -/
theorem components_join (relative : further.isAbsolute = false) (spoken : base.text ≠ "") :
    (base.join further).components = base.components ++ further.written :=
  components_join_of_spoken relative spoken

theorem join_of_isAbsolute (isAbsolute : further.isAbsolute = true) (base : Path) :
    base.join further = further := by
  rw [join, if_pos isAbsolute]

/-- What a relative path is written with stands at the end of whatever it is joined to. -/
theorem exists_segments_join (relative : further.isAbsolute = false) (base : Path) :
    ∃ front, (base.join further).segments = front ++ further.segments := by
  by_cases empty : base.text = ""
  · exact ⟨[], by simp [join, relative, empty, segments]⟩
  · obtain ⟨segment, body, joined, -⟩ := segments_join relative empty
    exact ⟨segment :: body, joined⟩

/-- Spellings of one path go on alike. -/
theorem same_join (same : path.same other = true) (further : Path) :
    (path.join further).same (other.join further) = true := by
  rw [same_iff]
  cases absolute : further.isAbsolute with
  | true => rw [join_of_isAbsolute absolute, join_of_isAbsolute absolute]
  | false =>
    by_cases empty : path.text = ""
    · have empty' : other.text = "" := by
        by_contra spoken
        exact spoken_of_same ((same_comm _ _).trans same) spoken empty
      rw [show path = other from congrArg Path.mk (empty.trans empty'.symm)]
    · rw [components_join absolute empty, components_join absolute (spoken_of_same same empty),
        same_iff.mp same]

/-- A path of names only is what is written in it. -/
theorem components_eq_written_of_names (named : ∀ component ∈ path.components,
    ∃ name, component = .name name) : path.components = path.written := by
  rw [written_eq_filter, eq_comm, List.filter_eq_self]
  intro component member
  obtain ⟨name, rfl⟩ := named component member
  simp

theorem relative_of_names (named : ∀ component ∈ path.components,
    ∃ name, component = .name name) : path.isAbsolute = false := by
  rw [← Bool.not_eq_true, isAbsolute_iff]
  rintro ⟨rest, spelled⟩
  obtain ⟨name, impossible⟩ := named .root (spelled ▸ List.mem_cons_self)
  cases impossible

/-! ### Cutting -/

/-- Segments that do not begin with an empty one, as a path again. -/
theorem segments_ofSegments_of_spoken {segment : List Char} {kept : List (List Char)}
    (spoken : segment ≠ []) (whole : ∀ other ∈ segment :: kept, '/' ∉ other) :
    (ofSegments (segment :: kept)).segments = segment :: kept := by
  rw [ofSegments, Path.segments, String.toList_ofList, Text.join_eq_intercalate,
    Text.split_intercalate (List.cons_ne_nil _ _) whole]
  intro single
  exact absurd (List.cons.inj single).1 spoken

theorem components_ofSegments_of_spoken {segment : List Char} {kept : List (List Char)}
    (spoken : segment ≠ []) (whole : ∀ other ∈ segment :: kept, '/' ∉ other) :
    (ofSegments (segment :: kept)).components = start segment ++ kept.filterMap component? :=
  components_of_segments (segments_ofSegments_of_spoken spoken whole)
    fun empty => absurd empty spoken

/-- Segments from the beginning of a path that begins with a name or a `..`. -/
theorem components_ofSegments_of_prefix {segment : List Char} {kept body : List (List Char)}
    (within : kept <+: segment :: body) (spoken : segment ≠ []) (undotted : segment ≠ ['.'])
    (whole : ∀ other ∈ segment :: body, '/' ∉ other) :
    (ofSegments kept).components = kept.filterMap component? := by
  cases kept with
  | nil => rfl
  | cons first kept =>
    obtain ⟨rfl, -⟩ := List.cons_prefix_cons.mp within
    rw [components_ofSegments_of_spoken spoken fun other member =>
      whole other (within.subset member), start, if_neg spoken, if_neg undotted]
    cases denotes : component? first <;> simp [denotes]

/-- Without its last component, a path that begins with a dot still begins with it. -/
theorem parent?_of_here {last : Component} {body : List (List Char)}
    (segments : path.segments = ['.'] :: body)
    (spelled : body.filterMap component? = before ++ [last]) :
    ∃ parent, path.parent? = some parent ∧ parent.components = .here :: before := by
  -- The dot in front is the whole of what leads, so the last component is cut from the segments
  -- behind it.
  obtain ⟨front, segment, silent, rfl, denotes, idle, rfl⟩ := exists_last_segment spelled
  have led : leading path.segments = ([['.']], front ++ segment :: silent) := by
    rw [segments, leading_of_spoken (List.cons_ne_nil _ _), if_pos rfl]
  obtain ⟨kept, dropped, rfl, quiet, parent⟩ := exists_parent_of_leading led denotes idle
  have whole : ∀ other ∈ ['.'] :: kept, '/' ∉ other := by
    intro other member
    have listed : other ∈ path.segments := by
      rw [segments]
      simp only [List.mem_cons, List.mem_append] at member ⊢
      tauto
    exact Text.not_mem_of_mem_split listed
  refine ⟨_, parent, ?_⟩
  rw [List.singleton_append, components_ofSegments_of_spoken (List.cons_ne_nil _ _) whole,
    filterMap_append_silent quiet]
  rfl

theorem parent?_of_undotted {last : Component} {segment : List Char} {body : List (List Char)}
    (segments : path.segments = segment :: body) (spoken : segment ≠ [])
    (undotted : segment ≠ ['.'])
    (spelled : (segment :: body).filterMap component? = before ++ [last]) :
    ∃ parent, path.parent? = some parent ∧ parent.components = before := by
  -- Nothing leads, so the last component is cut from all segments, of which the first one is kept
  -- or is itself the last.
  obtain ⟨front, final, silent, split, denotes, idle, rfl⟩ := exists_last_segment spelled
  have led : leading path.segments = ([], front ++ final :: silent) := by
    rw [segments, leading_of_spoken spoken, if_neg undotted, split]
  obtain ⟨kept, dropped, rfl, quiet, parent⟩ := exists_parent_of_leading led denotes idle
  have within : kept <+: segment :: body := by
    rw [split, List.append_assoc]
    exact List.prefix_append _ _
  have whole : ∀ other ∈ segment :: body, '/' ∉ other := by
    rw [← segments]
    exact fun other listed => Text.not_mem_of_mem_split listed
  refine ⟨_, parent, ?_⟩
  rw [List.nil_append, components_ofSegments_of_prefix within spoken undotted whole,
    filterMap_append_silent quiet]

/-- A relative path that ends in a name, without it: the empty path if there was only the name. -/
theorem parent?_of_relative (relative : path.isAbsolute = false)
    (spelled : path.components = before ++ [.name name]) :
    ∃ parent, path.parent? = some parent ∧ parent.components = before := by
  have nonempty : path.text ≠ "" := by
    intro empty
    rw [components, segments, empty] at spelled
    simp [Text.split, leading, component?, isSilent] at spelled
  obtain ⟨segment, body, segments, -, shape⟩ := segments_of_spoken nonempty
  have spoken : segment ≠ [] := by
    rintro rfl
    have absolute : path.isAbsolute = true := isAbsolute_iff.mpr ⟨_, shape⟩
    rw [relative] at absolute
    cases absolute
  rw [shape, start, if_neg spoken] at spelled
  by_cases here : segment = ['.']
  · -- the dot in front is not what is cut, since the last component is a name
    rw [if_pos here] at spelled
    cases before with
    | nil => simp at spelled
    | cons first before =>
      obtain ⟨root, ends⟩ := List.cons.inj spelled
      rw [← root]
      exact parent?_of_here (here ▸ segments) ends
  · apply parent?_of_undotted segments spoken here
    rw [if_neg here] at spelled
    rw [← spelled]
    cases denotes : component? segment <;> simp [denotes]

/-- The parent of a path that ends in a name is the path without that name. -/
theorem parent?_of_components (spelled : path.components = before ++ [.name name]) :
    ∃ parent, path.parent? = some parent ∧ parent.components = before := by
  cases absolute : path.isAbsolute with
  | false => exact parent?_of_relative absolute spelled
  | true =>
    rw [components_eq_written absolute] at spelled
    cases before with
    | nil => cases (List.cons.inj spelled).1
    | cons first before =>
      obtain ⟨root, spelled⟩ := List.cons.inj spelled
      obtain ⟨parent, found, above, rest⟩ := parent?_of_written absolute spelled
      refine ⟨parent, found, ?_⟩
      rw [components_eq_written above.isAbsolute, rest, root]

theorem fileName?_of_components (spelled : path.components = before ++ [.name name]) :
    path.fileName? = some name := by
  rw [fileName?, spelled, List.getLast?_concat]

/-- Putting a name in the place of the last one changes nothing in front of it. -/
theorem components_withFileName {other : String}
    (spelled : path.components = before ++ [.name name]) (named : IsName other) :
    (path.withFileName other).components = before ++ [.name other] := by
  obtain ⟨parent, found, rfl⟩ := parent?_of_components spelled
  rw [withFileName, fileName?_of_components spelled]
  simp only [found, Option.getD_some]
  exact components_child parent named

end SuiteRunner.Path
