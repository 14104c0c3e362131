import Mathlib.Tactic.ByContra
import SuiteRunner.Config.Effective
import SuiteRunner.Proofs.Ordered

/-!
# Variables of a chain of layers

A layer is meant to override what it inherits: two lists are joined, the layer's own
entries first, and anything else is replaced. Flattening goes the other way, from the most
specific layer to the root, and remembers of the layers passed so far only what they
amount to. The two agree for a variable unless its lists resurface: the most specific
layer sets a list, the layers behind it amount to a text or a flag, and one of them sets a
list all the same. `lookup_vars_flatten_cons_iff` says exactly this.
-/

namespace SuiteRunner.Config

open Ordered (HasDistinctKeys)

/-! ### Lists without repetition -/

theorem appendUnique_cons (items found : List String) (item : String) :
    appendUnique (· == ·) items (item :: found) =
      appendUnique (· == ·) (if item ∈ items then items else items ++ [item]) found := by
  simp [appendUnique]

theorem appendUnique_append (items first second : List String) :
    appendUnique (· == ·) items (first ++ second) =
      appendUnique (· == ·) (appendUnique (· == ·) items first) second := by
  simp [appendUnique]

/-- Merging lists in turn is merging all of their items. -/
theorem mergeLists_eq (lists : List (List String)) :
    mergeLists (· == ·) lists = appendUnique (· == ·) [] lists.flatten := by
  suffices gathered : ∀ items : List String,
      lists.foldl (appendUnique (· == ·)) items = appendUnique (· == ·) items lists.flatten from
    gathered []
  induction lists with
  | nil => simp [appendUnique]
  | cons list lists ih =>
    intro items
    rw [List.foldl_cons, ih, List.flatten_cons, appendUnique_append]

/-- What is appended are the items that are new, each at its first position. -/
theorem appendUnique_eq (items found : List String) :
    appendUnique (· == ·) items found = items ++ (found.filter (· ∉ items)).eraseDups := by
  -- By induction on what is found, with the items general: each new one moves to the end of them,
  -- so from then on it is one of those that are left out.
  induction found generalizing items with
  | nil => simp [appendUnique]
  | cons item found ih =>
    rw [appendUnique_cons, ih]
    by_cases present : item ∈ items
    · simp [present]
    · rw [if_neg present, List.filter_cons_of_pos (by simpa using present), List.eraseDups_cons,
        List.filter_filter]
      have same : ∀ other, decide (other ∉ items ++ [item]) =
          (!other == item && decide (other ∉ items)) := by
        intro other
        by_cases equal : other = item <;> simp [equal]
      simp only [same, List.append_assoc, List.singleton_append]

theorem mem_appendUnique (items found : List String) (item : String) :
    item ∈ appendUnique (· == ·) items found ↔ item ∈ items ∨ item ∈ found := by
  rw [appendUnique_eq, List.mem_append, List.mem_eraseDups, List.mem_filter]
  by_cases present : item ∈ items <;> simp [present]

/-- Joining with a list that was joined before is joining with its parts in turn. -/
theorem appendUnique_assoc (items first second : List String) :
    appendUnique (· == ·) items (appendUnique (· == ·) first second) =
      appendUnique (· == ·) (appendUnique (· == ·) items first) second := by
  induction second generalizing first with
  | nil => rfl
  | cons item second ih =>
    rw [appendUnique_cons, ih, appendUnique_cons]
    by_cases present : item ∈ first
    · have joined : item ∈ appendUnique (· == ·) items first :=
        (mem_appendUnique items first item).mpr (.inr present)
      rw [if_pos present, if_pos joined]
    · rw [if_neg present, appendUnique_append, appendUnique_cons]
      rfl

theorem appendUnique_eq_self_iff (items found : List String) :
    appendUnique (· == ·) items found = items ↔ ∀ item ∈ found, item ∈ items := by
  constructor
  · intro unchanged item member
    rw [← unchanged]
    exact (mem_appendUnique items found item).mpr (.inr member)
  · intro contained
    have nothing : found.filter (· ∉ items) = [] := by simpa using contained
    rw [appendUnique_eq, nothing, List.eraseDups_nil, List.append_nil]

/-! ### The rule -/

/-- What a variable is worth in a layer that inherits: two lists are joined, the inherited
entries behind the layer's own if they are new; anything else is replaced. -/
def overriding : (own inherited : Option Setting) → Option Setting
  | none, inherited => inherited
  | some (.list items), some (.list more) =>
    some (.list (items ++ (more.filter (· ∉ items)).eraseDups))
  | some own, _ => some own

@[simp] theorem overriding_none_left (inherited : Option Setting) :
    overriding none inherited = inherited := rfl

@[simp] theorem overriding_none_right (own : Option Setting) : overriding own none = own := by
  rcases own with - | own
  · rfl
  · cases own <;> rfl

theorem overriding_lists (items more : List String) :
    overriding (some (.list items)) (some (.list more)) =
      some (.list (appendUnique (· == ·) items more)) := by
  rw [appendUnique_eq]
  rfl

theorem lookup_mergeVariable (vars : Ordered.Table Setting) (key : String) (setting : Setting)
    (asked : String) :
    (mergeVariable vars key setting).lookup asked =
      if asked = key then overriding (vars.lookup key) (some setting) else vars.lookup asked := by
  unfold mergeVariable
  -- A variable that is set stays as it is, unless two lists meet.
  have kept : ∀ own, vars.lookup key = some own →
      vars.lookup asked = if asked = key then some own else vars.lookup asked := by
    intro own found
    split
    next same => rw [same, found]
    next => rfl
  cases found : vars.lookup key with
  | none => exact vars.lookup_put key setting asked
  | some own =>
    cases own with
    | flag value => exact kept _ found
    | text value => exact kept _ found
    | list items =>
      cases setting with
      | flag value => exact kept _ found
      | text value => exact kept _ found
      | list more => rw [overriding_lists]; exact vars.lookup_put _ _ asked

theorem lookup_mergeVariables (vars : Ordered.Table Setting) (more : List (String × Setting))
    (key : String) (distinct : HasDistinctKeys more) :
    (mergeVariables vars more).lookup key = overriding (vars.lookup key) (more.lookup key) := by
  induction more generalizing vars with
  | nil => simp [mergeVariables]
  | cons entry more ih =>
    obtain ⟨name, setting⟩ := entry
    obtain ⟨fresh, distinct⟩ := List.nodup_cons.mp distinct
    change (mergeVariables (mergeVariable vars name setting) more).lookup key = _
    rw [ih _ distinct, lookup_mergeVariable]
    by_cases same : key = name
    · subst same
      -- The keys are distinct, so nothing behind this entry sets the variable again.
      have absent : more.lookup key = none := by
        rw [List.lookup_eq_none_iff]
        intro entry member
        simpa using fun equal => fresh (List.mem_map.mpr ⟨entry, member, equal.symm⟩)
      rw [if_pos rfl, absent, List.lookup_cons_self, overriding_none_right]
    · have other : (key == name) = false := by simpa using same
      rw [if_neg same, List.lookup_cons, other]

/-- Flattening lets each layer in turn be overridden by what came before it. -/
theorem lookup_vars_flatten (chain : List Layer) (key : String) :
    (flatten chain).vars.lookup key =
      (chain.map (·.vars.lookup key)).foldl overriding none := by
  -- The induction is on the chain, for any variables gathered so far.
  suffices gathered : ∀ vars : Ordered.Table Setting,
      (chain.foldl (fun vars layer => mergeVariables vars layer.vars.entries) vars).lookup key =
        (chain.map (·.vars.lookup key)).foldl overriding (vars.lookup key) from gathered ∅
  induction chain with
  | nil => intro vars; rfl
  | cons layer chain ih =>
    intro vars
    rw [List.foldl_cons, ih, lookup_mergeVariables _ _ _ layer.vars.increasing.distinct]
    rfl

/-! ### Overriding step by step -/

/-- The entries of all lists among some settings. -/
def listed (settings : List (Option Setting)) : List String :=
  settings.flatMap fun setting =>
    match setting with
    | some (.list items) => items
    | _ => []

/-- A list gathers every list behind it, whatever stands in between. -/
theorem foldl_overriding_list (settings : List (Option Setting)) (items : List String) :
    settings.foldl overriding (some (.list items)) =
      some (.list (appendUnique (· == ·) items (listed settings))) := by
  induction settings generalizing items with
  | nil => rfl
  | cons setting settings ih =>
    rw [List.foldl_cons]
    rcases setting with - | (value | value | more)
    · exact ih items
    · exact ih items
    · exact ih items
    · rw [overriding_lists, ih]
      simp [listed, appendUnique_append]

/-- A text or a flag stays what it is. -/
theorem foldl_overriding_single (settings : List (Option Setting)) (own : Setting)
    (single : ∀ items, own ≠ .list items) :
    settings.foldl overriding (some own) = some own := by
  induction settings with
  | nil => rfl
  | cons setting settings ih =>
    have replaced : overriding (some own) setting = some own := by
      cases own with
      | flag value => rfl
      | text value => rfl
      | list items => exact absurd rfl (single items)
    rw [List.foldl_cons, replaced, ih]

/-- What some settings amount to: nothing, their first one if it is single, or its entries
followed by those of all later lists. -/
theorem foldl_overriding_cases (settings : List (Option Setting)) :
    (settings.foldl overriding none = none ∧ listed settings = []) ∨
    (∃ own, settings.foldl overriding none = some own ∧ ∀ items, own ≠ .list items) ∨
    (∃ items, settings.foldl overriding none = some (.list items) ∧
      ∀ before, appendUnique (· == ·) before items =
        appendUnique (· == ·) before (listed settings)) := by
  -- By induction from the front, since each setting overrides what all those behind it give: a flag
  -- or a text hides them, and a list is joined to theirs.
  induction settings with
  | nil => exact .inl ⟨rfl, rfl⟩
  | cons setting settings ih =>
    rcases setting with - | (value | value | items)
    · exact ih
    · refine .inr (.inl ⟨.flag value, ?_, by simp⟩)
      exact foldl_overriding_single settings _ (by simp)
    · refine .inr (.inl ⟨.text value, ?_, by simp⟩)
      exact foldl_overriding_single settings _ (by simp)
    · refine .inr (.inr ⟨_, foldl_overriding_list settings items, ?_⟩)
      intro before
      rw [appendUnique_assoc, ← appendUnique_append]
      rfl

theorem mem_listed (settings : List (Option Setting)) (item : String) :
    item ∈ listed settings ↔ ∃ items, some (.list items) ∈ settings ∧ item ∈ items := by
  unfold listed
  rw [List.mem_flatMap]
  constructor
  · rintro ⟨setting, member, present⟩
    split at present
    next items => exact ⟨items, member, present⟩
    next => simp at present
  · rintro ⟨items, member, present⟩
    exact ⟨_, member, present⟩

/-! ### The layers of a chain -/

/-- The most specific layer sets a list, what it inherits is no list, and yet a layer
further behind sets one with an entry of its own. -/
def Resurfaces (leaf : Layer) (rest : List Layer) (key : String) : Prop :=
  ∃ items inherited, leaf.vars.lookup key = some (.list items) ∧
    (flatten rest).vars.lookup key = some inherited ∧ (∀ more, inherited ≠ .list more) ∧
    ∃ layer ∈ rest, ∃ more, layer.vars.lookup key = some (.list more) ∧ ∃ item ∈ more, item ∉ items

theorem not_resurfaces_of_single {leaf : Layer} {key : String}
    (single : ∀ items, leaf.vars.lookup key ≠ some (.list items)) (rest : List Layer) :
    ¬ Resurfaces leaf rest key := by
  rintro ⟨items, -, own, -⟩
  exact single items own

theorem not_resurfaces_of_inherited {rest : List Layer} {key : String}
    (notSingle : ∀ own, (flatten rest).vars.lookup key = some own → ∃ items, own = .list items)
    (leaf : Layer) : ¬ Resurfaces leaf rest key := by
  rintro ⟨-, inherited, -, found, notList, -⟩
  obtain ⟨items, isList⟩ := notSingle inherited found
  exact notList items isList

theorem not_resurfaces_iff {leaf : Layer} {rest : List Layer} {key : String}
    {items : List String} {inherited : Setting} (own : leaf.vars.lookup key = some (.list items))
    (found : (flatten rest).vars.lookup key = some inherited)
    (single : ∀ more, inherited ≠ .list more) :
    ¬ Resurfaces leaf rest key ↔ ∀ item ∈ listed (rest.map (·.vars.lookup key)), item ∈ items := by
  constructor
  · intro clear item member
    obtain ⟨more, set, present⟩ := (mem_listed _ _).mp member
    obtain ⟨layer, inRest, set⟩ := List.mem_map.mp set
    by_contra absent
    exact clear ⟨items, inherited, own, found, single, layer, inRest, more, set, item, present,
      absent⟩
  · rintro contained ⟨others, -, set, -, -, layer, inRest, more, listSet, item, present, absent⟩
    obtain rfl : items = others := by simpa [own] using set
    refine absent (contained item ((mem_listed _ _).mpr ⟨more, ?_, present⟩))
    exact List.mem_map.mpr ⟨layer, inRest, listSet⟩

/-- A variable of a chain is what its most specific layer makes of the variable of the
chain behind it, unless a list resurfaces that a layer in between has overridden. -/
theorem lookup_vars_flatten_cons_iff (leaf : Layer) (rest : List Layer) (key : String) :
    (flatten (leaf :: rest)).vars.lookup key =
        overriding (leaf.vars.lookup key) ((flatten rest).vars.lookup key) ↔
      ¬ Resurfaces leaf rest key := by
  have inherits := lookup_vars_flatten rest key
  rw [lookup_vars_flatten (leaf :: rest) key, List.map_cons, List.foldl_cons,
    overriding_none_left]
  rcases own : leaf.vars.lookup key with - | (value | value | items)
  · rw [overriding_none_left, inherits]
    exact iff_of_true rfl (not_resurfaces_of_single (by simp [own]) rest)
  · rw [foldl_overriding_single _ _ (by simp)]
    exact iff_of_true rfl (not_resurfaces_of_single (by simp [own]) rest)
  · rw [foldl_overriding_single _ _ (by simp)]
    exact iff_of_true rfl (not_resurfaces_of_single (by simp [own]) rest)
  -- Only a list of the leaf goes on gathering, and the rest may amount to three things.
  · rw [foldl_overriding_list]
    rcases foldl_overriding_cases (rest.map (·.vars.lookup key)) with
      ⟨nothing, empty⟩ | ⟨single, first, notList⟩ | ⟨more, first, joined⟩
    · -- No layer behind sets the variable.
      have nowhere : (flatten rest).vars.lookup key = none := inherits.trans nothing
      rw [nowhere, overriding_none_right, empty]
      exact iff_of_true rfl (not_resurfaces_of_inherited (by simp [nowhere]) leaf)
    · -- The inherited value is single, so the rule keeps the list as it is.
      have found : (flatten rest).vars.lookup key = some single := inherits.trans first
      have kept : overriding (some (.list items)) (some single) = some (.list items) := by
        cases single with
        | flag value => rfl
        | text value => rfl
        | list others => exact absurd rfl (notList others)
      rw [found, kept, not_resurfaces_iff own found notList, Option.some.injEq,
        Setting.list.injEq, appendUnique_eq_self_iff]
    · -- The inherited value is a list, and joining is associative.
      have found : (flatten rest).vars.lookup key = some (.list more) := inherits.trans first
      rw [found, overriding_lists, joined]
      exact iff_of_true rfl (not_resurfaces_of_inherited (by simp [found]) leaf)

/-! ### A list that resurfaces -/

def listLeaf : Layer :=
  { scope := ⟨"/leaf/litmus.toml"⟩, vars := .ofList [("path", .list ["/leaf"])] }

/-- A text that overrides the list of the root. -/
def textOverList : List Layer :=
  [{ scope := ⟨"/middle/litmus.toml"⟩, vars := .ofList [("path", .text "none")] },
   { scope := ⟨"/root/litmus.toml"⟩, vars := .ofList [("path", .list ["/root"])] }]

/-- The entry of the root is back in the leaf, although the layer in between dropped it. -/
theorem overridden_entry_returns :
    (flatten textOverList).vars.lookup "path" = some (.text "none") ∧
      overriding (listLeaf.vars.lookup "path") (some (.text "none")) = some (.list ["/leaf"]) ∧
      (flatten (listLeaf :: textOverList)).vars.lookup "path" =
        some (.list ["/leaf", "/root"]) := by
  decide

theorem listLeaf_resurfaces : Resurfaces listLeaf textOverList "path" := by
  by_contra clear
  have equal := (lookup_vars_flatten_cons_iff listLeaf textOverList "path").mpr clear
  revert equal
  decide

end SuiteRunner.Config
