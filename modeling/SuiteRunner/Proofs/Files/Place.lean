import SuiteRunner.Files.Tree
import SuiteRunner.Proofs.Text.Cutting

/-!
# Paths of places

The path of a place is read back as the names that lead to it, going down by a name adds
that name, and going up takes it away. So one such path starts with another if and only
if its place is at or below the place of the other.
-/

namespace SuiteRunner

namespace Files

/-- A text that can be the name of an entry of a directory. -/
structure IsName (name : String) : Prop where
  spoken : Path.isSilent name.toList = false
  down : name.toList ≠ ['.', '.']
  whole : '/' ∉ name.toList

namespace IsName

variable {name : String}

theorem ne_nil (valid : IsName name) : name.toList ≠ [] := by
  intro empty
  have spoken := valid.spoken
  simp [Path.isSilent, empty] at spoken

theorem component? (valid : IsName name) :
    Path.component? name.toList = some (.name name) := by
  simp [Path.component?, valid.spoken, valid.down]

theorem stepOf (valid : IsName name) : Files.stepOf name.toList = .down name := by
  simp [Files.stepOf, valid.spoken, valid.down]

end IsName

/-- A list of names. -/
def IsPlace (place : Place) : Prop := ∀ name ∈ place, IsName name

instance (name : String) : Decidable (IsName name) :=
  decidable_of_iff (Path.isSilent name.toList = false ∧ name.toList ≠ ['.', '.'] ∧
      '/' ∉ name.toList)
    ⟨fun ⟨spoken, down, whole⟩ => ⟨spoken, down, whole⟩, fun ⟨spoken, down, whole⟩ =>
      ⟨spoken, down, whole⟩⟩

instance (place : Place) : Decidable (IsPlace place) :=
  inferInstanceAs (Decidable (∀ name ∈ place, IsName name))

theorem isPlace_append {place : Place} {name : String} (valid : IsPlace place)
    (named : IsName name) : IsPlace (place ++ [name]) := by
  intro other member
  rcases List.mem_append.mp member with member | member
  · exact valid other member
  · rw [List.mem_singleton.mp member]
    exact named

theorem IsPlace.of_prefix {place above : Place} (valid : IsPlace place) (within : above <+: place) :
    IsPlace above :=
  fun name member => valid name (within.subset member)

namespace Place

variable {place other : Place} {name : String}

theorem toList_path (place : Place) :
    (Place.path place).text.toList = '/' :: ['/'].intercalate (place.map String.toList) := by
  simp [Place.path]

theorem segments_path (valid : IsPlace place) :
    (Place.path place).segments =
      [] :: if place = [] then [[]] else place.map String.toList := by
  rw [Path.segments, toList_path, Text.split, if_pos rfl]
  split
  next empty => rw [empty]; rfl
  next nonempty =>
    rw [Text.split_intercalate (by simpa using nonempty)]
    intro piece member
    obtain ⟨name, listed, rfl⟩ := List.mem_map.mp member
    exact (valid name listed).whole

theorem filterMap_component? (valid : IsPlace place) :
    (place.map String.toList).filterMap Path.component? = place.map .name := by
  induction place with
  | nil => rfl
  | cons name place ih =>
    have first := (valid name List.mem_cons_self).component?
    have others := ih fun name member => valid name (List.mem_cons_of_mem _ member)
    rw [List.map_cons, List.filterMap_cons_some first, others, List.map_cons]

theorem components_path (valid : IsPlace place) :
    (Place.path place).components = .root :: place.map .name := by
  rw [Path.components, segments_path valid]
  cases place with
  | nil => rfl
  | cons name place =>
    simp only [reduceCtorEq, if_false, List.map_cons, Path.leading]
    rw [← List.map_cons, ← List.map_cons, filterMap_component? valid]

theorem stepsOf_path (valid : IsPlace place) :
    stepsOf (Place.path place) =
      .stay :: if place = [] then [.stay] else place.map .down := by
  have steps : (place.map String.toList).map stepOf = place.map .down := by
    rw [List.map_map]
    exact List.map_congr_left fun name member => (valid name member).stepOf
  rw [stepsOf, segments_path valid, List.map_cons]
  split
  next => rfl
  next => rw [steps]; rfl

theorem isAbsolute_path (place : Place) : (Place.path place).isAbsolute = true := by
  simp [Path.isAbsolute, toList_path]

/-- The path of a place one name further down has one component more. -/
theorem components_path_append (valid : IsPlace place) (named : IsName name) :
    (Place.path (place ++ [name])).components =
      (Place.path place).components ++ [.name name] := by
  rw [components_path (isPlace_append valid named), components_path valid, List.map_append]
  rfl

theorem eq_of_same (valid : IsPlace place) (valid' : IsPlace other)
    (same : (Place.path place).same (Place.path other) = true) : place = other := by
  rw [Path.same_iff, components_path valid, components_path valid'] at same
  exact List.map_inj_right (fun _ _ equal => Path.Component.name.inj equal) |>.mp
    (List.cons.inj same).2

/-- Places in the same place are told apart by their names there. -/
theorem eq_of_same_append {outer : Place} (valid : IsPlace outer) (valid' : IsPlace place)
    (valid'' : IsPlace other)
    (same : (Place.path (outer ++ place)).same (Place.path (outer ++ other)) = true) :
    place = other :=
  List.append_cancel_left (eq_of_same (List.forall_mem_append.mpr ⟨valid, valid'⟩)
    (List.forall_mem_append.mpr ⟨valid, valid''⟩) same)

theorem getLast?_path (valid : IsPlace place) (nonempty : place ≠ []) :
    (Place.path place).text.toList.getLast? ≠ some '/' := by
  -- The path ends with the last name, in which there is no slash.
  obtain ⟨front, last, rfl⟩ : ∃ front last, place = front ++ [last] :=
    ⟨_, _, (List.dropLast_concat_getLast nonempty).symm⟩
  have named := valid last (List.mem_append_right _ List.mem_cons_self)
  have ends : ∃ before, (Place.path (front ++ [last])).text.toList = before ++ last.toList := by
    by_cases empty : front = []
    · exact ⟨['/'], by simp [empty, Place.path]⟩
    · refine ⟨("/" ++ "/".intercalate front ++ "/").toList, ?_⟩
      rw [Place.path, String.intercalate_append_of_ne_nil empty (List.cons_ne_nil _ _)]
      simp [String.append_assoc]
  obtain ⟨before, ends⟩ := ends
  have isSome : last.toList.getLast?.isSome := by simpa using named.ne_nil
  rw [ends, List.getLast?_append, Option.or_of_isSome isSome]
  intro slash
  exact named.whole (List.mem_of_getLast? slash)

/-- Going down by a name. -/
theorem child_path (valid : IsPlace place) (named : IsName name) :
    (Place.path place).child name = Place.path (place ++ [name]) := by
  have relative : (⟨name⟩ : Path).isAbsolute = false := by
    cases starts : name.toList with
    | nil => simp [Path.isAbsolute, starts]
    | cons c rest =>
      have whole := named.whole
      rw [starts] at whole
      simp only [Path.isAbsolute, starts, List.head?_cons]
      simpa using Ne.symm (List.ne_of_not_mem_cons whole)
  have spoken : (Place.path place).text.isEmpty = false := by simp [Place.path]
  simp only [Path.child, Path.join, relative, spoken, Bool.false_or, Bool.false_eq_true, if_false]
  by_cases empty : place = []
  · simp [empty, Place.path]
  · have ends := getLast?_path valid empty
    rw [if_neg (by simpa using ends), Place.path, Place.path,
      String.intercalate_append_of_ne_nil empty (List.cons_ne_nil _ _)]
    simp [String.append_assoc]

/-- Going up again. -/
theorem parent?_path (valid : IsPlace place) (named : IsName name) :
    (Place.path (place ++ [name])).parent? = some (Place.path place) := by
  have silent : ∀ segment ∈ (place.map String.toList).reverse, Path.isSilent segment = false := by
    intro segment member
    obtain ⟨name, listed, rfl⟩ := List.mem_map.mp (List.mem_reverse.mp member)
    exact (valid name listed).spoken
  -- Only the last name goes, because no name in front of it is silent.
  have kept : (place.map String.toList).reverse.dropWhile Path.isSilent =
      (place.map String.toList).reverse := by
    cases shape : (place.map String.toList).reverse with
    | nil => rfl
    | cons segment segments =>
      rw [shape] at silent
      exact List.dropWhile_cons_of_neg (by simp [silent segment List.mem_cons_self])
  have segments : (Place.path (place ++ [name])).segments =
      [] :: (place.map String.toList ++ [name.toList]) := by
    rw [segments_path (isPlace_append valid named), if_neg (by simp)]
    simp
  have led : Path.leading ([] :: (place.map String.toList ++ [name.toList])) =
      ([[]], place.map String.toList ++ [name.toList]) := by
    cases place <;> rfl
  simp only [Path.parent?, segments, led, List.reverse_append, List.reverse_cons, List.reverse_nil,
    List.nil_append, List.singleton_append, List.dropWhile_cons, named.spoken, Bool.false_eq_true,
    if_false, kept, List.reverse_reverse]
  cases place with
  | nil => rfl
  | cons first rest =>
    simp only [List.map_cons, Path.ofSegments, Option.some.injEq]
    rw [Text.join_eq_intercalate, List.intercalate_cons_cons, ← List.map_cons, List.nil_append,
      List.singleton_append, ← toList_path, String.ofList_toList]

end Place

end Files

end SuiteRunner
