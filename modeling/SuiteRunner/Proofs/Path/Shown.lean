import SuiteRunner.Proofs.Path.Absolute
import SuiteRunner.Proofs.Text.Decoding

/-!
# What paths are shown as

Neither packing a text nor showing one makes a slash or takes one away, and neither has to do with
the segments that are no names. So it is the names of a path, each for itself, that are changed when
the path is shown.
-/

namespace SuiteRunner

theorem Text.split_map (separator : Char) (change : List Char → List Char)
    (parted : ∀ cs rest, change (cs ++ separator :: rest) = change cs ++ separator :: change rest)
    (whole : ∀ cs, separator ∈ change cs → separator ∈ cs) (cs : List Char) :
    split separator (change cs) = (split separator cs).map change := by
  have pieces_whole : ∀ piece ∈ (split separator cs).map change, separator ∉ piece := by
    intro piece member
    obtain ⟨piece, listed, rfl⟩ := List.mem_map.mp member
    exact fun among => not_mem_of_mem_split listed (whole piece among)
  have joined : ∀ pieces, pieces ≠ [] →
      change ([separator].intercalate pieces) = [separator].intercalate (pieces.map change) := by
    intro pieces nonempty
    induction pieces with
    | nil => exact absurd rfl nonempty
    | cons piece pieces ih =>
      cases pieces with
      | nil => simp
      | cons next pieces =>
        have further := ih (List.cons_ne_nil _ _)
        rw [List.map_cons, List.map_cons, List.intercalate_cons_cons, List.intercalate_cons_cons,
          ← List.map_cons, ← further, List.append_assoc, List.append_assoc]
        exact parted _ _
  have nonempty := split_ne_nil separator cs
  conv_lhs => rw [← intercalate_split separator cs, joined _ nonempty]
  exact split_intercalate (by simpa using nonempty) pieces_whole

namespace Path

/-- A change of texts that goes from name to name when it is made to a path. -/
structure KeepsSegments (change : String → String) : Prop where
  parted : ∀ text rest, change (text ++ "/" ++ rest) = change text ++ "/" ++ change rest
  whole : ∀ text, '/' ∈ (change text).toList → '/' ∈ text.toList
  silent : ∀ word ∈ ["", ".", ".."], ∀ text, change text = word ↔ text = word

theorem keepsSegments_pack : KeepsSegments Text.pack where
  parted := Text.pack_append_slash
  whole _ := Text.slash_mem_of_pack
  silent word member text := by
    have same : ∀ word ∈ ["", ".", ".."], Text.pack word = word := by decide
    rw [← same word member, Text.pack_inj, same word member]

theorem keepsSegments_shown : KeepsSegments Text.shown where
  parted := Text.shown_append_slash
  whole _ := Text.slash_mem_of_shown
  silent word member text := by
    have dots : ∀ c ∈ word.toList, c = '.' := by
      simp only [List.mem_cons, List.not_mem_nil, or_false] at member
      rcases member with rfl | rfl | rfl <;> simp
    refine Text.shown_eq_iff fun c among => ?_
    obtain rfl := dots c among
    decide

theorem KeepsSegments.comp {change after : String → String} (keeps : KeepsSegments change)
    (keeps' : KeepsSegments after) : KeepsSegments (after ∘ change) where
  parted text rest := by
    simp only [Function.comp_apply, keeps.parted, keeps'.parted]
  whole text among := keeps.whole _ (keeps'.whole _ among)
  silent word member text := (keeps'.silent word member _).trans (keeps.silent word member text)

def Component.map (change : String → String) : Component → Component
  | name text => name (change text)
  | component => component

namespace KeepsSegments

variable {change : String → String} {segment : List Char} (keeps : KeepsSegments change)
include keeps

/-- A segment that is no name is left as it is, and no name becomes one. -/
theorem segment_eq_iff (word : List Char) (member : word ∈ [[], ['.'], ['.', '.']]) :
    (change (String.ofList segment)).toList = word ↔ segment = word := by
  have listed : String.ofList word ∈ ["", ".", ".."] := by
    revert word
    decide
  rw [← String.toList_ofList (l := word), String.toList_inj, keeps.silent _ listed,
    ← String.toList_inj, String.toList_ofList, String.toList_ofList]

theorem isSilent : isSilent (change (String.ofList segment)).toList = Path.isSilent segment := by
  apply Bool.eq_iff_iff.mpr
  simp only [Path.isSilent, Bool.or_eq_true, List.isEmpty_iff, beq_iff_eq,
    keeps.segment_eq_iff [] (by simp), keeps.segment_eq_iff ['.'] (by simp)]

theorem component? : component? (change (String.ofList segment)).toList =
    (Path.component? segment).map (.map change) := by
  simp only [Path.component?, keeps.isSilent, keeps.segment_eq_iff ['.', '.'] (by simp),
    String.ofList_toList]
  split
  next => rfl
  next => split <;> rfl

theorem start : start (change (String.ofList segment)).toList =
    (Path.start segment).map (.map change) := by
  simp only [Path.start, keeps.component?, keeps.segment_eq_iff [] (by simp),
    keeps.segment_eq_iff ['.'] (by simp)]
  split
  next => rfl
  next =>
    split
    next => rfl
    next => cases Path.component? segment <;> rfl

theorem isName {name : String} (named : Files.IsName name) : Files.IsName (change name) := by
  rw [← String.ofList_toList (s := name)]
  refine ⟨?_, ?_, fun among => named.whole ?_⟩
  · rw [keeps.isSilent, named.spoken]
  · exact mt (keeps.segment_eq_iff _ (by simp)).mp named.down
  · exact keeps.whole name (by simpa using among)

/-- The components of a path change as their names do. -/
theorem components (path : Path) :
    components ⟨change path.text⟩ = path.components.map (.map change) := by
  have cut : (⟨change path.text⟩ : Path).segments =
      path.segments.map fun segment => (change (String.ofList segment)).toList := by
    have parts := Text.split_map '/' (fun cs => (change (String.ofList cs)).toList) ?_ ?_
      path.text.toList
    · simpa [segments] using parts
    · intro cs rest
      have joined : String.ofList (cs ++ '/' :: rest) =
          String.ofList cs ++ "/" ++ String.ofList rest := by
        simp [← String.toList_inj]
      rw [joined, keeps.parted]
      simp
    · intro cs among
      simpa using keeps.whole _ among
  by_cases empty : path.text = ""
  · have silent : change "" = "" := (keeps.silent "" (by simp) "").mpr rfl
    have nowhere : (⟨""⟩ : Path).components = [] := by decide
    obtain ⟨text⟩ := path
    subst empty
    rw [silent, nowhere]
    rfl
  · obtain ⟨segment, body, shape, longer, denoted⟩ := segments_of_spoken empty
    have further : body.filterMap (Path.component? ∘ fun segment =>
          (change (String.ofList segment)).toList) =
        (body.filterMap Path.component?).map (.map change) := by
      rw [List.map_filterMap]
      congr 1
      funext segment
      exact keeps.component?
    rw [shape, List.map_cons] at cut
    rw [components_of_segments cut, denoted, List.map_append, keeps.start, List.filterMap_map,
      further]
    intro none
    simpa using longer ((keeps.segment_eq_iff _ (by simp)).mp none)

end KeepsSegments

/-- The path that a path is shown as. -/
def seen (path : Path) : Path := .ofText path.shown

theorem components_seen (path : Path) :
    path.seen.components = path.components.map (.map (Text.pack ∘ Text.shown)) :=
  (keepsSegments_shown.comp keepsSegments_pack).components path

theorem seen_same {path other : Path} (same : path.same other = true) :
    path.seen.same other.seen = true := by
  rw [same_iff, components_seen, components_seen, same_iff.mp same]

@[simp] theorem seen_ofText (text : String) : (ofText text).seen = ofText text := by
  simp [seen, shown, ofText]

end Path

end SuiteRunner
