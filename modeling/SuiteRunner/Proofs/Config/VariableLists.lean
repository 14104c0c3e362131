import SuiteRunner.Proofs.Config.Merging
import SuiteRunner.Proofs.Config.Variables

/-!
# Variables that are lists

A list variable of a chain is meant to be merged like a search list: each entry once, where it
occurs first. What is merged are the lists of the layers from the nearest one on that sets the
variable. The list of that layer itself is taken as it is written, so the merged list repeats an
entry if and only if this one does.
-/

namespace SuiteRunner.Config

/-! ### Lists that are appended -/

section

variable {items found : List String}

theorem nodup_appendUnique (nodup : items.Nodup) (found : List String) :
    (appendUnique (· == ·) items found).Nodup := by
  induction found generalizing items with
  | nil => exact nodup
  | cons item found ih =>
    rw [appendUnique_cons]
    split
    next => exact ih nodup
    next fresh =>
      apply ih
      rw [List.nodup_append]
      -- the new entry is none of those that were there
      refine ⟨nodup, List.pairwise_singleton _ _, ?_⟩
      rintro old member new here rfl
      exact fresh (List.mem_singleton.mp here ▸ member)

theorem nodup_appendUnique_iff (items found : List String) :
    (appendUnique (· == ·) items found).Nodup ↔ items.Nodup := by
  constructor
  · intro nodup
    rw [appendUnique_eq] at nodup
    exact (List.nodup_append.mp nodup).1
  · intro nodup
    exact nodup_appendUnique nodup found

/-- Nothing is left out of what holds no entry twice. -/
theorem appendUnique_of_nodup (nodup : (items ++ found).Nodup) :
    appendUnique (· == ·) items found = items ++ found := by
  induction found generalizing items with
  | nil => simp [appendUnique]
  | cons item found ih =>
    have fresh : item ∉ items := fun member =>
      (List.nodup_append.mp nodup).2.2 item member item List.mem_cons_self rfl
    rw [List.append_cons] at nodup ⊢
    rw [appendUnique_cons, if_neg fresh, ih nodup]

end

/-! ### The list of a chain -/

variable {chain : List Layer} {key : String} {items : List String}

/-- The entries that a layer gives a variable, if it sets the variable to a list. -/
def Layer.listOf (layer : Layer) (key : String) : List String :=
  match layer.vars.lookup key with
  | some (.list items) => items
  | _ => []

theorem Layer.listOf_of_unset {layer : Layer} (unset : layer.vars.lookup key = none) :
    layer.listOf key = [] := by
  rw [listOf, unset]

theorem Layer.listOf_of_list {layer : Layer} (set : layer.vars.lookup key = some (.list items)) :
    layer.listOf key = items := by
  rw [listOf, set]

theorem listed_eq_flatten (chain : List Layer) (key : String) :
    listed (chain.map (·.vars.lookup key)) = (chain.map (·.listOf key)).flatten := by
  rw [listed, List.flatMap_map, List.flatMap_def]
  rfl

theorem foldl_overriding_unset {settings : List (Option Setting)}
    (unset : ∀ setting ∈ settings, setting = none) : settings.foldl overriding none = none := by
  induction settings with
  | nil => rfl
  | cons setting settings ih =>
    obtain ⟨here, others⟩ := List.forall_mem_cons.mp unset
    rw [List.foldl_cons, here]
    exact ih others

/-- A list comes about behind a list: the nearest layer that sets the variable sets one, and the
entries of all lists behind are appended to it. -/
theorem exists_nearest_list
    (value : (flatten chain).vars.lookup key = some (.list items)) :
    ∃ own rest, Nearest chain (·.vars.lookup key) (.list own) ∧
      (chain.map (·.listOf key)).flatten = own ++ rest ∧
      items = appendUnique (· == ·) own rest := by
  rw [lookup_vars_flatten chain key] at value
  -- some layer sets the variable, since otherwise it would have no value at all
  cases first : chain.findSome? (·.vars.lookup key) with
  | none =>
    rw [List.findSome?_eq_none_iff] at first
    rw [foldl_overriding_unset (by simpa using first)] at value
    cases value
  | some setting =>
    obtain ⟨before, layer, behind, rfl, set, unset⟩ := findSome?_eq_some_iff_nearest.mp first
    dsimp only at set unset
    have skipped : (before.map (·.vars.lookup key)).foldl overriding none = none :=
      foldl_overriding_unset (by simpa using unset)
    rw [List.map_append, List.foldl_append, skipped, List.map_cons, List.foldl_cons, set,
      overriding_none_left] at value
    cases setting with
    -- a text or a flag would have stayed what it is
    | flag flag => simp [foldl_overriding_single _ (.flag flag) (by simp)] at value
    | text text => simp [foldl_overriding_single _ (.text text) (by simp)] at value
    | list own =>
      rw [foldl_overriding_list, Option.some.injEq, Setting.list.injEq, listed_eq_flatten] at value
      have nothing : (before.map (·.listOf key)).flatten = [] := by
        simpa using fun layer member => Layer.listOf_of_unset (unset layer member)
      refine ⟨own, (behind.map (·.listOf key)).flatten,
        ⟨before, layer, behind, rfl, set, unset⟩, ?_, value.symm⟩
      rw [List.map_append, List.flatten_append, nothing, List.nil_append, List.map_cons,
        List.flatten_cons, Layer.listOf_of_list set]

/-- A variable that is a list stands for its entries, one behind the other. -/
theorem mem_rules_of_list {config : EffectiveConfig}
    (value : config.vars.lookup key = some (.list items)) :
    ⟨Substitution.variablePlaceholder key, Substitution.pathListSeparator.intercalate items⟩ ∈
      config.rules := by
  obtain ⟨before, after, split, -⟩ := List.lookup_eq_some_iff.mp value
  refine List.mem_append_right _ (List.mem_filterMap.mpr ⟨(key, .list items), ?_, rfl⟩)
  rw [split]
  exact List.mem_append_right _ List.mem_cons_self

/-- A variable that is a list holds the list of the nearest layer that sets it, as it is written,
and then the entries behind that are new, each once. So it is merged as search lists are if and
only if that layer repeats no entry, and this is also when the text of the variable repeats none. -/
theorem variable_list_joins_iff
    (value : (flatten chain).vars.lookup key = some (.list items)) :
    ∃ own rest, Nearest chain (·.vars.lookup key) (.list own) ∧
      (chain.map (·.listOf key)).flatten = own ++ rest ∧
      items = own ++ (rest.filter (· ∉ own)).eraseDups ∧
      (Joins (· == ·) (chain.map (·.listOf key)) items ↔ own.Nodup) ∧
      (items.Nodup ↔ own.Nodup) ∧
      ⟨Substitution.variablePlaceholder key, Substitution.pathListSeparator.intercalate items⟩ ∈
        (flatten chain).rules := by
  obtain ⟨own, rest, nearest, split, rfl⟩ := exists_nearest_list value
  refine ⟨own, rest, nearest, split, appendUnique_eq own rest, ?_,
    nodup_appendUnique_iff own rest, mem_rules_of_list value⟩
  constructor
  · intro joins
    rw [← nodup_appendUnique_iff own rest]
    exact joins.once.imp fun different same => by simp [same] at different
  · intro nodup
    have unchanged : appendUnique (· == ·) [] own = own :=
      appendUnique_of_nodup nodup
    -- the list of the nearest layer comes out of merging as it went in
    have merged : appendUnique (· == ·) own rest =
        mergeLists (· == ·) (chain.map (·.listOf key)) := by
      rw [mergeLists_eq, split, appendUnique_append, unchanged]
    rw [merged]
    exact joins_strings _

/-- A list that a second layer continues. -/
def listedTwice : List Layer :=
  [{ scope := ⟨"/leaf/litmus.toml"⟩ },
   { scope := ⟨"/middle/litmus.toml"⟩, vars := .ofList [("path", .list ["/a", "/b"])] },
   { scope := ⟨"/root/litmus.toml"⟩, vars := .ofList [("path", .list ["/c", "/b", "/c"])] }]

theorem listedTwice_joins :
    (flatten listedTwice).vars.lookup "path" = some (.list ["/a", "/b", "/c"]) ∧
      Joins (· == ·) (listedTwice.map (·.listOf "path")) ["/a", "/b", "/c"] := by
  have value : (flatten listedTwice).vars.lookup "path" = some (.list ["/a", "/b", "/c"]) := by
    decide
  obtain ⟨own, rest, -, -, -, joins, once, -⟩ := variable_list_joins_iff value
  exact ⟨value, joins.mpr (once.mp (by decide))⟩

/-- One layer that writes an entry twice keeps it twice, although a search list would not. -/
theorem repeated_entry_stays :
    let layer : Layer :=
      { scope := ⟨"/suite/litmus.toml"⟩
        vars := .ofList [("path", .list ["/a", "/b", "/a"])]
        suffixes := ["/a", "/b", "/a"] }
    (flatten [layer]).vars.lookup "path" = some (.list ["/a", "/b", "/a"]) ∧
      (flatten [layer]).suffixes = ["/a", "/b"] ∧
      ⟨"%{var:path}", "/a:/b:/a"⟩ ∈ (flatten [layer]).rules ∧
      ¬ Joins (· == ·) [layer.listOf "path"] ["/a", "/b", "/a"] := by
  intro layer
  refine ⟨by decide, by decide, by decide, fun joins => ?_⟩
  have once := joins.once
  revert once
  decide

end SuiteRunner.Config
