import Mathlib.Data.List.Induction
import SuiteRunner.Proofs.Files.Place

/-!
# Components of paths

Going down by a name adds that name to the components, however the path is spelled. So what
lies some names below a path is seen from there as these names.
-/

namespace SuiteRunner

namespace Path

open Files

variable {path : Path} {name : String} {names : List String}

/-- What the leading segment of a longer path denotes. -/
def start (segment : List Char) : List Component :=
  if segment = [] then [.root] else if segment = ['.'] then [.here]
  else (component? segment).toList

theorem leading_of_spoken {segment : List Char} (spoken : segment ≠ []) (body : List (List Char)) :
    leading (segment :: body) =
      if segment = ['.'] then ([['.']], body) else ([], segment :: body) := by
  split
  next here => rw [here]; rfl
  next other =>
    unfold leading
    split <;> simp_all

theorem components_of_segments {segment : List Char} {body : List (List Char)}
    (segments : path.segments = segment :: body) (longer : segment = [] → body ≠ []) :
    path.components = start segment ++ body.filterMap component? := by
  rw [components, segments, start]
  by_cases empty : segment = []
  · subst empty
    obtain ⟨second, body, rfl⟩ := List.exists_cons_of_ne_nil (longer rfl)
    rfl
  · rw [if_neg empty, leading_of_spoken empty]
    by_cases here : segment = ['.']
    · subst here
      rfl
    · rw [if_neg here, if_neg here]
      cases denoted : component? segment <;> simp [denoted]

/-- The segments of a path that is not empty; no such path has one empty segment only. -/
theorem segments_of_spoken (spoken : path.text ≠ "") :
    ∃ segment body, path.segments = segment :: body ∧ (segment = [] → body ≠ []) ∧
      path.components = start segment ++ body.filterMap component? := by
  obtain ⟨segment, body, shape⟩ :=
    List.exists_cons_of_ne_nil (Text.split_ne_nil '/' path.text.toList)
  have longer : segment = [] → body ≠ [] := by
    rintro rfl rfl
    exact spoken (String.toList_eq_nil_iff.mp (Text.eq_nil_of_split shape))
  exact ⟨segment, body, shape, longer, components_of_segments shape longer⟩

theorem start_of_isName (named : IsName name) : start name.toList = [.name name] := by
  have spoken : name.toList ≠ ['.'] := by
    intro here
    have spoken := named.spoken
    simp [isSilent, here] at spoken
  rw [start, if_neg named.ne_nil, if_neg spoken, named.component?, Option.toList_some]

theorem isAbsolute_of_whole (whole : '/' ∉ name.toList) : (⟨name⟩ : Path).isAbsolute = false := by
  have starts : name.toList.head? ≠ some '/' := fun starts =>
    whole (List.mem_of_mem_head? starts)
  simpa [isAbsolute] using starts

/-- Going down by a relative path adds its segments; an empty segment behind a last slash gives
way. -/
theorem segments_join {further : Path} (relative : further.isAbsolute = false)
    (spoken : path.text ≠ "") :
    ∃ segment body, (path.join further).segments = segment :: (body ++ further.segments) ∧
      (path.segments = segment :: (body ++ [[]]) ∨
        path.segments = segment :: body ∧ (segment = [] → body ≠ [])) := by
  -- The text is joined with a slash, unless the path ends with one.
  by_cases slash : path.text.toList.getLast? = some '/'
  · obtain ⟨front, text⟩ := List.getLast?_eq_some_iff.mp slash
    obtain ⟨segment, body, shape⟩ := List.exists_cons_of_ne_nil (Text.split_ne_nil '/' front)
    refine ⟨segment, body, ?_, Or.inl ?_⟩
    · simp [join, relative, segments, text, Text.split_append_cons, shape]
    · rw [segments, text, Text.split_append_cons, shape]
      rfl
  · obtain ⟨segment, body, shape, longer, -⟩ := segments_of_spoken spoken
    refine ⟨segment, body, ?_, Or.inr ⟨shape, longer⟩⟩
    rw [segments] at shape
    simp [join, relative, slash, spoken, segments, Text.split_append_cons, shape]

theorem segments_child (whole : '/' ∉ name.toList) (spoken : path.text ≠ "") :
    ∃ segment body, (path.child name).segments = segment :: (body ++ [name.toList]) ∧
      (path.segments = segment :: (body ++ [[]]) ∨
        path.segments = segment :: body ∧ (segment = [] → body ≠ [])) := by
  have single : (⟨name⟩ : Path).segments = [name.toList] := Text.split_of_not_mem whole
  have joined := segments_join (isAbsolute_of_whole whole) spoken
  rwa [single] at joined

/-- Going down by a relative path adds what is written in it. -/
theorem components_join_of_spoken {further : Path} (relative : further.isAbsolute = false)
    (spoken : path.text ≠ "") :
    (path.join further).components =
      path.components ++ further.segments.filterMap component? := by
  have silent : component? [] = none := rfl
  have longer : further.segments ≠ [] := Text.split_ne_nil '/' further.text.toList
  obtain ⟨segment, body, joined, before | ⟨before, nonempty⟩⟩ := segments_join relative spoken
  · rw [components_of_segments joined (by simp [longer]), components_of_segments before (by simp)]
    simp [silent]
  · rw [components_of_segments joined (by simp [longer]), components_of_segments before nonempty]
    simp

/-- Going down by a text without slashes adds what it denotes. -/
theorem components_child_of_spoken {component : Component} (spoken : path.text ≠ "")
    (whole : '/' ∉ name.toList) (denotes : component? name.toList = some component) :
    (path.child name).components = path.components ++ [component] := by
  have single : (⟨name⟩ : Path).segments = [name.toList] := Text.split_of_not_mem whole
  rw [child, components_join_of_spoken (isAbsolute_of_whole whole) spoken, single,
    List.filterMap_cons_some denotes, List.filterMap_nil]

/-- Going down by a name adds one component. -/
theorem components_child (path : Path) (named : IsName name) :
    (path.child name).components = path.components ++ [.name name] := by
  by_cases empty : path.text = ""
  · have segments : (path.child name).segments = [name.toList] := by
      simp [child, join, isAbsolute_of_whole named.whole, empty, segments,
        Text.split_of_not_mem named.whole]
    have before : path.components = [] := by
      rw [components, Path.segments, empty]
      rfl
    rw [components_of_segments segments fun empty => absurd empty named.ne_nil,
      start_of_isName named, before, List.filterMap_nil, List.append_nil, List.nil_append]
  · exact components_child_of_spoken empty named.whole named.component?

/-- Going down from a path does not change where it starts. -/
theorem isAbsolute_child (named : IsName name) (spoken : path.text ≠ "") :
    (path.child name).isAbsolute = path.isAbsolute := by
  obtain ⟨c, text, shape⟩ := List.exists_cons_of_ne_nil (mt String.toList_eq_nil_iff.mp spoken)
  simp only [child, join, isAbsolute_of_whole named.whole, Bool.false_eq_true, if_false]
  split <;> simp [isAbsolute, shape]

theorem head?_start {segment : List Char} (spoken : segment ≠ []) :
    ∃ component, component ≠ .root ∧ start segment = [component] := by
  rw [start, if_neg spoken]
  by_cases here : segment = ['.']
  · exact ⟨.here, Component.noConfusion, if_pos here⟩
  · have denotes : isSilent segment = false := by simp [isSilent, spoken, here]
    rw [if_neg here, component?, denotes]
    by_cases up : segment = ['.', '.']
    · exact ⟨.up, Component.noConfusion, by simp [up]⟩
    · exact ⟨.name (String.ofList segment), Component.noConfusion, by simp [up]⟩

/-- A path whose first component is the root begins with a slash. -/
theorem segments_of_root {rest : List Component} (spelled : path.components = .root :: rest) :
    path.isAbsolute = true ∧ ∃ body, path.segments = [] :: body ∧
      body.filterMap component? = rest := by
  obtain ⟨segment, body, segments⟩ :=
    List.exists_cons_of_ne_nil (Text.split_ne_nil '/' path.text.toList)
  by_cases empty : segment = []
  · subst empty
    -- The only segment of the empty path is empty, and does not stand for the root.
    have longer : body ≠ [] := by
      rintro rfl
      rw [components, Path.segments, segments] at spelled
      cases spelled
    have split := components_of_segments segments fun _ => longer
    rw [spelled, start, if_pos rfl, List.singleton_append] at split
    refine ⟨?_, body, segments, (List.cons.inj split).2.symm⟩
    cases text : path.text.toList with
    | nil =>
      rw [text] at segments
      exact absurd (List.cons.inj segments).2.symm longer
    | cons c cs =>
      rw [text, Text.split] at segments
      split at segments
      next slash => simp [isAbsolute, text, slash]
      next => split at segments <;> cases segments
  · have split := components_of_segments segments fun none => absurd none empty
    obtain ⟨component, different, single⟩ := head?_start empty
    rw [spelled, single, List.singleton_append] at split
    exact absurd (List.cons.inj split).1.symm different

/-! ### Going further down -/

/-- Go down by several names. -/
def descend (path : Path) (names : List String) : Path := names.foldl child path

theorem descend_concat (path : Path) (names : List String) (name : String) :
    path.descend (names ++ [name]) = (path.descend names).child name := by
  rw [descend, List.foldl_append]
  rfl

theorem components_descend (path : Path) (valid : IsPlace names) :
    (path.descend names).components = path.components ++ names.map .name := by
  induction names using List.reverseRecOn with
  | nil => exact (List.append_nil _).symm
  | append_singleton names name ih =>
    have above := ih (valid.of_prefix (List.prefix_append _ _))
    have named := valid name (List.mem_append_right _ List.mem_cons_self)
    rw [descend_concat, components_child _ named, above, List.map_append, List.append_assoc]
    rfl

/-! ### Seen from above -/

theorem below?_append (base rest : List Component) : below? base (base ++ rest) = some rest := by
  induction base with
  | nil => cases rest <;> rfl
  | cons component base ih => rw [List.cons_append, below?, if_pos rfl, ih]

/-- What lies some names further down is seen as these names. -/
theorem relativeTo?_descend (path : Path) (valid : IsPlace names) :
    (path.descend names).relativeTo? path = some ⟨"/".intercalate names⟩ := by
  rw [relativeTo?, components_descend path valid, below?_append, Option.map_some, List.map_map]
  exact congrArg (fun texts => some (⟨"/".intercalate texts⟩ : Path)) (List.map_id names)

theorem components_intercalate (valid : IsPlace names) :
    (⟨"/".intercalate names⟩ : Path).components = names.map .name := by
  cases names with
  | nil => rfl
  | cons name names =>
    have named := valid name List.mem_cons_self
    have segments : (⟨"/".intercalate (name :: names)⟩ : Path).segments =
        (name :: names).map String.toList := by
      rw [segments, String.toList_intercalate]
      refine Text.split_intercalate (by simp) fun piece member => ?_
      obtain ⟨other, listed, rfl⟩ := List.mem_map.mp member
      exact (valid other listed).whole
    rw [components_of_segments segments fun empty => absurd empty named.ne_nil,
      start_of_isName named, Place.filterMap_component? fun other member =>
        valid other (List.mem_cons_of_mem _ member)]
    rfl

end Path

end SuiteRunner
