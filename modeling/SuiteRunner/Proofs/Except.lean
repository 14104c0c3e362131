import Mathlib.Data.List.Forall2

/-!
# Computations that may fail
-/

namespace SuiteRunner

variable {ε ε' α β : Type}

theorem bind_eq_ok {checked : Except ε α} {f : α → Except ε β} {result : β}
    (bound : checked >>= f = .ok result) : ∃ value, checked = .ok value ∧ f value = .ok result := by
  cases checked with
  | error fault => simp [bind, Except.bind] at bound
  | ok value => exact ⟨value, rfl, bound⟩

theorem bind_eq_error_iff {checked : Except ε α} {f : α → Except ε β} {fault : ε} :
    checked >>= f = .error fault ↔
      checked = .error fault ∨ ∃ value, checked = .ok value ∧ f value = .error fault := by
  cases checked with
  | error cause => simp [bind, Except.bind]
  | ok value => simp [bind, Except.bind]

theorem map_eq_ok {checked : Except ε α} {f : α → β} {result : β}
    (mapped : checked.map f = .ok result) : ∃ value, checked = .ok value ∧ f value = result := by
  cases checked with
  | error fault => simp [Except.map] at mapped
  | ok value => exact ⟨value, rfl, by simpa [Except.map] using mapped⟩

/-- What is computed of a result tells the result. -/
theorem exists_eq_ok {checked : Except ε α} {f : α → β} {computed : β}
    (made : checked.toOption.map f = some computed) :
    ∃ value, checked = .ok value ∧ f value = computed := by
  cases checked with
  | error fault => cases made
  | ok value => exact ⟨value, rfl, Option.some.inj made⟩

theorem mapError_eq_ok_iff {checked : Except ε α} {f : ε → ε'} {result : α} :
    checked.mapError f = .ok result ↔ checked = .ok result := by
  cases checked with
  | error fault => simp [Except.mapError]
  | ok value => simp [Except.mapError]

theorem mapError_eq_error_iff {checked : Except ε α} {f : ε → ε'} {fault : ε'} :
    checked.mapError f = .error fault ↔ ∃ cause, checked = .error cause ∧ f cause = fault := by
  cases checked with
  | error cause => simp [Except.mapError]
  | ok value => simp [Except.mapError]

/-- What every step keeps holds of the result of all steps. -/
theorem foldlM_keeps {step : β → α → Except ε β} (holds : β → Prop)
    (keeps : ∀ {found item next}, holds found → step found item = .ok next → holds next)
    {items : List α} {start result : β} (initial : holds start)
    (folded : items.foldlM step start = .ok result) : holds result := by
  induction items generalizing start with
  | nil =>
    cases folded
    exact initial
  | cons item items ih =>
    rw [List.foldlM_cons] at folded
    obtain ⟨next, stepped, folded⟩ := bind_eq_ok folded
    exact ih (keeps initial stepped) folded

theorem mapM_eq_ok_iff {f : α → Except ε β} {items : List α} {results : List β} :
    items.mapM f = .ok results ↔
      List.Forall₂ (fun item result => f item = .ok result) items results := by
  induction items generalizing results with
  | nil =>
    rw [List.mapM_nil, List.forall₂_nil_left_iff]
    exact ⟨fun same => by cases same; rfl, fun empty => by rw [empty]; rfl⟩
  | cons item items ih =>
    rw [List.mapM_cons, List.forall₂_cons_left_iff]
    constructor
    · intro mapped
      obtain ⟨result, done, mapped⟩ := bind_eq_ok mapped
      obtain ⟨results, rest, single⟩ := bind_eq_ok mapped
      cases single
      exact ⟨result, results, done, ih.mp rest, rfl⟩
    · rintro ⟨result, results, done, rest, rfl⟩
      rw [done, ih.mpr rest]
      rfl

/-- The first item at which a list stops is its head, or the head goes on and it is the first one
of the items behind it. -/
theorem exists_first_cons_iff {goesOn stops : α → Prop} {head : α} {items : List α} :
    (∃ before item after, head :: items = before ++ item :: after ∧
        (∀ earlier ∈ before, goesOn earlier) ∧ stops item) ↔
      stops head ∨ goesOn head ∧ ∃ before item after, items = before ++ item :: after ∧
        (∀ earlier ∈ before, goesOn earlier) ∧ stops item := by
  constructor
  · rintro ⟨before, item, after, split, passed, stopped⟩
    cases before with
    | nil =>
      cases split
      exact .inl stopped
    | cons earlier before =>
      cases split
      obtain ⟨here, passed⟩ := List.forall_mem_cons.mp passed
      exact .inr ⟨here, before, item, after, rfl, passed, stopped⟩
  · rintro (stopped | ⟨here, before, item, after, rfl, passed, stopped⟩)
    · exact ⟨[], head, items, rfl, by simp, stopped⟩
    · exact ⟨head :: before, item, after, rfl, List.forall_mem_cons.mpr ⟨here, passed⟩, stopped⟩

/-- A computation over a list fails as it does for the first item for which it fails. -/
theorem mapM_eq_error_iff {f : α → Except ε β} {items : List α} {fault : ε} :
    items.mapM f = .error fault ↔
      ∃ before item after, items = before ++ item :: after ∧
        (∀ earlier ∈ before, ∃ result, f earlier = .ok result) ∧ f item = .error fault := by
  induction items with
  | nil => simp [pure, Except.pure]
  | cons head items ih =>
    rw [List.mapM_cons, exists_first_cons_iff, ← ih]
    cases done : f head with
    | error cause => simp [bind, Except.bind]
    | ok result => cases items.mapM f <;> simp [bind, Except.bind, pure, Except.pure]

theorem exists_forall₂_iff {related : α → β → Prop} {items : List α} :
    (∃ results, List.Forall₂ related items results) ↔
      ∀ item ∈ items, ∃ result, related item result := by
  induction items with
  | nil => simp
  | cons item items ih =>
    rw [List.forall_mem_cons, ← ih]
    constructor
    · rintro ⟨_, matched⟩
      obtain ⟨result, results, here, rest, -⟩ := List.forall₂_cons_left_iff.mp matched
      exact ⟨⟨result, here⟩, results, rest⟩
    · rintro ⟨⟨result, here⟩, results, rest⟩
      exact ⟨result :: results, .cons here rest⟩

end SuiteRunner
