import SuiteRunner.Proofs.Path.Absolute

/-!
# Parents of absolute paths

The parent of an absolute path is the path without the last thing that is written in it, a name or
a `..`, and its text is the beginning of the text. The root has no parent.
-/

namespace SuiteRunner

theorem Text.exists_intercalate_append (separator : Char) {front back : List (List Char)}
    (nonempty : front ≠ []) (further : back ≠ []) :
    ∃ rest, [separator].intercalate (front ++ back) =
      [separator].intercalate front ++ separator :: rest := by
  induction front with
  | nil => exact absurd rfl nonempty
  | cons piece front ih =>
    cases front with
    | nil =>
      obtain ⟨next, back, rfl⟩ := List.exists_cons_of_ne_nil further
      refine ⟨[separator].intercalate (next :: back), ?_⟩
      rw [List.singleton_append, List.intercalate_cons_cons, List.intercalate_singleton]
      simp
    | cons next front =>
      obtain ⟨rest, split⟩ := ih (List.cons_ne_nil _ _)
      refine ⟨rest, ?_⟩
      rw [List.cons_append, List.cons_append, List.intercalate_cons_cons,
        List.intercalate_cons_cons, ← List.cons_append, split]
      simp

namespace Path

variable {path : Path} {before : List Component} {last : Component}

theorem isSilent_iff {segment : List Char} :
    isSilent segment = true ↔ component? segment = none := by
  unfold component?
  split
  next silent => simp [silent]
  next spoken => split <;> simp [spoken]

/-- Silent segments at the end denote nothing. -/
theorem filterMap_append_silent {kept dropped : List (List Char)}
    (quiet : ∀ other ∈ dropped, isSilent other = true) :
    (kept ++ dropped).filterMap component? = kept.filterMap component? := by
  have nothing : dropped.filterMap component? = [] :=
    List.filterMap_eq_nil_iff.mpr fun other member => isSilent_iff.mp (quiet other member)
  rw [List.filterMap_append, nothing, List.append_nil]

/-- A path that begins like another one, whose text goes on behind it. -/
structure Above (above path : Path) : Prop where
  isAbsolute : above.isAbsolute = true
  further : ∃ rest, rest ≠ [] ∧ path.text.toList = above.text.toList ++ rest

/-- The last segment that denotes something, and the silent ones behind it. -/
theorem exists_last_segment {body : List (List Char)}
    (spelled : body.filterMap component? = before ++ [last]) :
    ∃ front segment silent, body = front ++ segment :: silent ∧
      isSilent segment = false ∧ (∀ other ∈ silent, isSilent other = true) ∧
      front.filterMap component? = before := by
  obtain ⟨front, back, rfl, led, ends⟩ := List.filterMap_eq_append_iff.mp spelled
  obtain ⟨between, segment, silent, rfl, idle, denotes, nothing⟩ :=
    List.filterMap_eq_cons_iff.mp ends
  refine ⟨front ++ between, segment, silent, (List.append_assoc ..).symm, ?_, ?_, ?_⟩
  · rw [← Bool.not_eq_true, isSilent_iff, denotes]
    exact Option.some_ne_none _
  · exact fun other member => isSilent_iff.mpr (List.filterMap_eq_nil_iff.mp nothing other member)
  · rw [List.filterMap_append, List.filterMap_eq_nil_iff.mpr idle, List.append_nil, led]

theorem exists_of_written (isAbsolute : path.isAbsolute = true)
    (spelled : path.written = before ++ [last]) :
    ∃ front segment silent, path.segments = [] :: (front ++ segment :: silent) ∧
      isSilent segment = false ∧ (∀ other ∈ silent, isSilent other = true) ∧
      front.filterMap component? = before := by
  obtain ⟨body, segments, -⟩ := components_of_isAbsolute isAbsolute
  have nothing : component? [] = none := rfl
  rw [written, segments, List.filterMap_cons_none nothing] at spelled
  obtain ⟨front, segment, silent, rfl, further⟩ := exists_last_segment spelled
  exact ⟨front, segment, silent, segments, further⟩

theorem leading_of_root {body : List (List Char)} (nonempty : body ≠ []) :
    leading ([] :: body) = ([[]], body) := by
  obtain ⟨second, body, rfl⟩ := List.exists_cons_of_ne_nil nonempty
  rfl

/-- Segments behind the root, as a path again. -/
theorem segments_ofSegments {kept : List (List Char)} (whole : ∀ segment ∈ kept, '/' ∉ segment) :
    (ofSegments ([] :: kept)).segments = [] :: if kept = [] then [[]] else kept := by
  cases kept with
  | nil => rfl
  | cons segment kept =>
    rw [if_neg (List.cons_ne_nil _ _), ofSegments, Path.segments, String.toList_ofList,
      Text.join_eq_intercalate, Text.split_intercalate (List.cons_ne_nil _ _)]
    · exact List.forall_mem_cons.mpr ⟨List.not_mem_nil, whole⟩
    · intro impossible
      cases impossible

theorem isAbsolute_ofSegments {kept : List (List Char)}
    (whole : ∀ segment ∈ kept, '/' ∉ segment) :
    (ofSegments ([] :: kept)).isAbsolute = true := by
  have longer : (if kept = [] then [[]] else kept) ≠ [] := by split <;> simp_all
  have spelled := components_of_segments (segments_ofSegments whole) fun _ => longer
  exact isAbsolute_iff.mpr ⟨_, spelled⟩

/-- The text of a path goes on behind that of its first segments. -/
theorem exists_text_append {kept back : List (List Char)} {segment : List Char}
    (segments : path.segments = [] :: kept ++ back) (member : segment ∈ back)
    (spoken : segment ≠ []) :
    ∃ rest, rest ≠ [] ∧ path.text.toList = (ofSegments ([] :: kept)).text.toList ++ rest := by
  have text : path.text.toList = ['/'].intercalate ([] :: kept ++ back) := by
    rw [← segments, Path.segments, Text.intercalate_split]
  obtain ⟨rest, split⟩ := Text.exists_intercalate_append '/' (List.cons_ne_nil [] kept)
    (List.ne_nil_of_mem member)
  rw [split] at text
  cases kept with
  | nil =>
    -- Only the slash is left of the text, and there is more in it.
    refine ⟨rest, ?_, text⟩
    rintro rfl
    have single : path.segments = [[], []] := by
      rw [Path.segments, text]
      rfl
    rw [single] at segments
    obtain rfl : back = [[]] := (List.cons.inj segments).2.symm
    exact spoken (List.mem_singleton.mp member)
  | cons next kept =>
    refine ⟨'/' :: rest, List.cons_ne_nil _ _, ?_⟩
    rw [text, ofSegments, String.toList_ofList, Text.join_eq_intercalate]
    intro impossible
    cases impossible

/-- The parent keeps what stands in front of the last segment that denotes something, without the
silent segments directly in front of it. -/
theorem exists_parent_of_leading {lead front silent : List (List Char)} {segment : List Char}
    (led : leading path.segments = (lead, front ++ segment :: silent))
    (spoken : isSilent segment = false) (idle : ∀ other ∈ silent, isSilent other = true) :
    ∃ kept dropped, front = kept ++ dropped ∧ (∀ other ∈ dropped, isSilent other = true) ∧
      path.parent? = some (ofSegments (lead ++ kept)) := by
  refine ⟨(front.reverse.dropWhile isSilent).reverse, (front.reverse.takeWhile isSilent).reverse,
    ?_, fun other member => ?_, ?_⟩
  · rw [← List.reverse_append, List.takeWhile_append_dropWhile, List.reverse_reverse]
  · exact List.all_eq_true.mp List.all_takeWhile other (List.mem_reverse.mp member)
  · have back : (front ++ segment :: silent).reverse.dropWhile isSilent =
        segment :: front.reverse := by
      rw [List.reverse_append, List.reverse_cons, List.append_assoc,
        List.dropWhile_append_of_pos fun other member => idle other (List.mem_reverse.mp member)]
      simp [spoken]
    rw [parent?, led]
    simp only [back]

theorem exists_parent_of_segments {front silent : List (List Char)} {segment : List Char}
    (segments : path.segments = [] :: (front ++ segment :: silent))
    (spoken : isSilent segment = false) (idle : ∀ other ∈ silent, isSilent other = true) :
    ∃ kept dropped, front = kept ++ dropped ∧ (∀ other ∈ dropped, isSilent other = true) ∧
      path.parent? = some (ofSegments ([] :: kept)) := by
  have led : leading path.segments = ([[]], front ++ segment :: silent) := by
    rw [segments, leading_of_root (by simp)]
  exact exists_parent_of_leading led spoken idle

/-- Without the last thing that is written in it, a path is above itself. -/
theorem parent?_of_written (isAbsolute : path.isAbsolute = true)
    (spelled : path.written = before ++ [last]) :
    ∃ parent, path.parent? = some parent ∧ parent.Above path ∧ parent.written = before := by
  obtain ⟨front, segment, silent, segments, spoken, idle, led⟩ :=
    exists_of_written isAbsolute spelled
  obtain ⟨kept, dropped, rfl, quiet, parent⟩ := exists_parent_of_segments segments spoken idle
  have whole : ∀ other ∈ kept, '/' ∉ other := by
    intro other member
    have listed : other ∈ Text.split '/' path.text.toList := by
      rw [← Path.segments, segments]
      simp [member]
    exact Text.not_mem_of_mem_split listed
  refine ⟨_, parent, ⟨isAbsolute_ofSegments whole, ?_⟩, ?_⟩
  · have further : path.segments = [] :: kept ++ (dropped ++ segment :: silent) := by
      rw [segments]
      simp
    refine exists_text_append further (List.mem_append_right _ List.mem_cons_self) ?_
    rintro rfl
    cases spoken
  · -- The silent segments denote nothing, so nothing that is written is lost with them.
    rw [written, segments_ofSegments whole, ← led, filterMap_append_silent quiet]
    split <;> simp_all [component?, isSilent]

theorem parent?_of_root (isAbsolute : path.isAbsolute = true) (nothing : path.written = []) :
    path.parent? = none := by
  obtain ⟨body, segments, spelled⟩ := components_of_isAbsolute isAbsolute
  have root : [] :: body = path.segments := segments.symm
  have nonempty : body ≠ [] := by
    rintro rfl
    exact text_ne_of_isAbsolute isAbsolute
      (String.toList_eq_nil_iff.mp (Text.eq_nil_of_split segments))
  -- A segment that is not silent is written as a component, and nothing is written here.
  have silent : ∀ segment ∈ body.reverse, isSilent segment = true := by
    intro segment member
    refine isSilent_iff.mpr (List.filterMap_eq_nil_iff.mp nothing segment ?_)
    rw [segments]
    exact List.mem_cons_of_mem _ (List.mem_reverse.mp member)
  rw [parent?, segments, leading_of_root nonempty]
  simp only [List.dropWhile_eq_nil_iff.mpr silent]
  rfl

theorem isAbsolute_of_parent? {parent : Path} (isAbsolute : path.isAbsolute = true)
    (found : path.parent? = some parent) : parent.isAbsolute = true := by
  rcases List.eq_nil_or_concat path.written with nothing | ⟨before, last, spelled⟩
  · rw [parent?_of_root isAbsolute nothing] at found
    cases found
  · obtain ⟨parent', found', above, -⟩ := parent?_of_written isAbsolute (by simpa using spelled)
    cases found.symm.trans found'
    exact above.isAbsolute

end Path

end SuiteRunner
