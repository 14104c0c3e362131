import Mathlib.Data.List.Basic
import Mathlib.Data.List.Induction
import SuiteRunner.Config.Effective
import SuiteRunner.Proofs.Ordered

/-!
# What a chain of layers is merged into

Four disciplines cover all settings but the variables. Search lists are joined from the
most specific layer on, every entry staying where it occurs first; substitutions follow
one another; sets are united; and a single value or an environment entry is taken from the
layer nearest to the leaf that sets it. `flatten_merges` says so for every chain.
-/

namespace SuiteRunner.Config

/-! ### First occurrences -/

/-- A position in a sequence of lists: which list it is in, and where in that list. -/
structure Position where
  layer : Nat
  index : Nat

/-- An earlier list comes first, and in one list the earlier entry. -/
def Position.Before (a b : Position) : Prop :=
  a.layer < b.layer ∨ a.layer = b.layer ∧ a.index < b.index

theorem Position.Before.trans {a b c : Position} (first : a.Before b) (second : b.Before c) :
    a.Before c := by
  unfold Before at *
  omega

theorem Position.Before.irrefl {a : Position} : ¬ a.Before a := by
  unfold Before
  omega

/-- The entry at a position, if the lists reach that far. -/
def entryAt? {α : Type} (lists : List (List α)) (position : Position) : Option α :=
  lists[position.layer]?.bind (·[position.index]?)

variable {α : Type} {same : α → α → Bool}

/-- The item stands at this position, and nothing that counts as the same stands before. -/
structure FirstAt (same : α → α → Bool) (lists : List (List α)) (position : Position)
    (item : α) : Prop where
  here : entryAt? lists position = some item
  first : ∀ earlier other, earlier.Before position → entryAt? lists earlier = some other →
    same other item = false

/-- The items are the entries of the lists, each of them once, spelled as it occurs first
and in the order of the first occurrences. -/
structure Joins (same : α → α → Bool) (lists : List (List α)) (items : List α) : Prop where
  first : ∀ item ∈ items, ∃ position, FirstAt same lists position item
  complete : ∀ position entry, entryAt? lists position = some entry →
    ∃ item ∈ items, same item entry = true
  once : items.Pairwise (same · · = false)
  ordered : items.Pairwise fun item later => ∃ position position',
    FirstAt same lists position item ∧ FirstAt same lists position' later ∧
      position.Before position'

/-- The lists of `more` are those of `lists` with one item behind all others. -/
structure Extends (lists more : List (List α)) (last : Position) (item : α) : Prop where
  entries : ∀ position entry, entryAt? more position = some entry ↔
    entryAt? lists position = some entry ∨ position = last ∧ entry = item
  before : ∀ position entry, entryAt? lists position = some entry → position.Before last

/-- A first occurrence stays one when an item is added behind. -/
theorem FirstAt.extend {lists more : List (List α)} {last position : Position} {item found : α}
    (grown : Extends lists more last item) (occurs : FirstAt same lists position found) :
    FirstAt same more position found := by
  refine ⟨(grown.entries _ _).mpr (.inl occurs.here), fun earlier other before there => ?_⟩
  rcases (grown.entries _ _).mp there with old | ⟨rfl, rfl⟩
  · exact occurs.first earlier other before old
  · exact absurd (before.trans (grown.before _ _ occurs.here)) Position.Before.irrefl

/-- Adding one item, unless something that counts as the same is there, takes in one more
entry of the lists. -/
theorem Joins.extend (refl : ∀ a, same a a = true)
    (trans : ∀ a b c, same a b = true → same b c = true → same a c = true)
    {lists more : List (List α)} {last : Position} {item : α} {items : List α}
    (grown : Extends lists more last item) (joins : Joins same lists items) :
    Joins same more (if items.any (same · item) then items else items ++ [item]) := by
  have ordered := joins.ordered.imp (S := fun item later => ∃ position position',
      FirstAt same more position item ∧ FirstAt same more position' later ∧
        position.Before position')
    fun ⟨position, position', occurs, occurs', before⟩ =>
      ⟨position, position', occurs.extend grown, occurs'.extend grown, before⟩
  have first : ∀ item ∈ items, ∃ position, FirstAt same more position item := fun item member =>
    let ⟨position, occurs⟩ := joins.first item member
    ⟨position, occurs.extend grown⟩
  split
  next present =>
    obtain ⟨kept, member, alike⟩ := List.any_eq_true.mp present
    refine ⟨first, fun position entry there => ?_, joins.once, ordered⟩
    rcases (grown.entries _ _).mp there with old | ⟨-, rfl⟩
    · exact joins.complete position entry old
    · exact ⟨kept, member, alike⟩
  next absent =>
    have fresh : ∀ kept ∈ items, same kept item = false := by simpa using absent
    -- Whatever stands before and counts as the same would have been kept.
    have occurs : FirstAt same more last item := by
      refine ⟨(grown.entries _ _).mpr (.inr ⟨rfl, rfl⟩), fun earlier other before there => ?_⟩
      rcases (grown.entries _ _).mp there with old | ⟨rfl, -⟩
      · obtain ⟨kept, member, alike⟩ := joins.complete earlier other old
        rw [← Bool.not_eq_true]
        intro equal
        exact absurd (trans _ _ _ alike equal) (by simp [fresh kept member])
      · exact absurd before Position.Before.irrefl
    refine ⟨fun found member => ?_, fun position entry there => ?_, ?_, ?_⟩
    · rcases List.mem_append.mp member with old | new
      · exact first found old
      · exact ⟨last, List.mem_singleton.mp new ▸ occurs⟩
    · rcases (grown.entries _ _).mp there with old | ⟨-, rfl⟩
      · obtain ⟨kept, member, alike⟩ := joins.complete position entry old
        exact ⟨kept, List.mem_append_left _ member, alike⟩
      · exact ⟨entry, List.mem_append_right _ (List.mem_singleton_self _), refl entry⟩
    · exact List.pairwise_append.mpr ⟨joins.once, List.pairwise_singleton _ _,
        fun kept member _ new => List.mem_singleton.mp new ▸ fresh kept member⟩
    · refine List.pairwise_append.mpr ⟨ordered, List.pairwise_singleton _ _,
        fun kept member _ new => ?_⟩
      obtain ⟨position, before⟩ := joins.first kept member
      rw [List.mem_singleton.mp new]
      exact ⟨position, last, before.extend grown, occurs,
        grown.before _ _ before.here⟩

/-! ### Entries of lists that grow -/

theorem entryAt?_concat (lists : List (List α)) (list : List α) (position : Position) (entry : α) :
    entryAt? (lists ++ [list]) position = some entry ↔
      entryAt? lists position = some entry ∨
        position.layer = lists.length ∧ list[position.index]? = some entry := by
  unfold entryAt?
  rcases Nat.lt_trichotomy position.layer lists.length with below | here | above
  · rw [List.getElem?_append_left below]
    simp [Nat.ne_of_lt below]
  · rw [here, List.getElem?_concat_length, List.getElem?_eq_none (Nat.le_refl _)]
    simp
  · rw [List.getElem?_eq_none (by simpa using Nat.succ_le_of_lt above),
      List.getElem?_eq_none (Nat.le_of_lt above)]
    simp [Nat.ne_of_gt above]

theorem layer_lt_of_entryAt? {lists : List (List α)} {position : Position} {entry : α}
    (there : entryAt? lists position = some entry) : position.layer < lists.length := by
  obtain ⟨list, found, -⟩ := Option.bind_eq_some_iff.mp there
  exact (List.getElem?_eq_some_iff.mp found).1

theorem entryAt?_concat_nil (lists : List (List α)) (position : Position) :
    entryAt? (lists ++ [[]]) position = entryAt? lists position := by
  ext entry
  simp [entryAt?_concat]

theorem extends_concat (lists : List (List α)) (found : List α) (item : α) :
    Extends (lists ++ [found]) (lists ++ [found ++ [item]]) ⟨lists.length, found.length⟩ item := by
  refine ⟨fun position entry => ?_, fun position entry there => ?_⟩
  · obtain ⟨layer, index⟩ := position
    rw [entryAt?_concat, entryAt?_concat, or_assoc]
    refine or_congr Iff.rfl ?_
    rw [Position.mk.injEq, and_assoc, ← and_or_left]
    refine and_congr Iff.rfl ?_
    -- The index is one of those that were there, or the new one, or behind both.
    rcases Nat.lt_trichotomy index found.length with below | rfl | above
    · rw [List.getElem?_append_left below]
      simp [Nat.ne_of_lt below]
    · simp [eq_comm]
    · rw [List.getElem?_eq_none (by simpa using Nat.succ_le_of_lt above),
        List.getElem?_eq_none (Nat.le_of_lt above)]
      simp [Nat.ne_of_gt above]
  · rcases (entryAt?_concat _ _ _ _).mp there with inside | ⟨last, inside⟩
    · exact .inl (layer_lt_of_entryAt? inside)
    · exact .inr ⟨last, (List.getElem?_eq_some_iff.mp inside).1⟩

theorem Joins.congr {lists lists' : List (List α)} {items : List α}
    (agree : ∀ position, entryAt? lists' position = entryAt? lists position)
    (joins : Joins same lists items) : Joins same lists' items := by
  have equal : entryAt? lists' = entryAt? lists := funext agree
  have occurs : ∀ position item, FirstAt same lists position item →
      FirstAt same lists' position item := fun position item occurs =>
    ⟨by rw [equal, occurs.here], by rw [equal]; exact occurs.first⟩
  refine ⟨fun item member => ?_, by rw [equal]; exact joins.complete, joins.once,
    joins.ordered.imp ?_⟩
  · obtain ⟨position, first⟩ := joins.first item member
    exact ⟨position, occurs _ _ first⟩
  · rintro item later ⟨position, position', first, first', before⟩
    exact ⟨position, position', occurs _ _ first, occurs _ _ first', before⟩

/-- Joining lists keeps every entry once, where it occurs first. -/
theorem joins_mergeLists (refl : ∀ a, same a a = true)
    (trans : ∀ a b c, same a b = true → same b c = true → same a c = true)
    (lists : List (List α)) : Joins same lists (mergeLists same lists) := by
  -- Both inductions go from the front to the back, one list and then one entry at a time.
  induction lists using List.reverseRecOn with
  | nil => exact ⟨by simp [mergeLists], by simp [entryAt?], .nil, .nil⟩
  | append_singleton lists list joins =>
    rw [mergeLists, List.foldl_concat]
    change Joins same _ (appendUnique same (mergeLists same lists) list)
    induction list using List.reverseRecOn with
    | nil => exact joins.congr (entryAt?_concat_nil lists)
    | append_singleton found item joins' =>
      rw [appendUnique, List.foldl_concat]
      exact joins'.extend refl trans (extends_concat lists found item)

theorem exists_entryAt?_iff {lists : List (List α)} {entry : α} :
    (∃ position, entryAt? lists position = some entry) ↔ ∃ list ∈ lists, entry ∈ list := by
  constructor
  · rintro ⟨position, there⟩
    obtain ⟨list, listed, inside⟩ := Option.bind_eq_some_iff.mp there
    exact ⟨list, List.mem_of_getElem? listed, List.mem_of_getElem? inside⟩
  · rintro ⟨list, listed, inside⟩
    obtain ⟨layer, reached⟩ := List.mem_iff_getElem?.mp listed
    obtain ⟨index, here⟩ := List.mem_iff_getElem?.mp inside
    exact ⟨⟨layer, index⟩, by rw [entryAt?, reached, Option.bind_some, here]⟩

theorem Joins.exists_list {lists : List (List α)} {items : List α} (joins : Joins same lists items)
    {item : α} (member : item ∈ items) : ∃ list ∈ lists, item ∈ list := by
  obtain ⟨position, occurs⟩ := joins.first item member
  exact exists_entryAt?_iff.mp ⟨position, occurs.here⟩

theorem Joins.exists_same {lists : List (List α)} {items : List α} (joins : Joins same lists items)
    {list : List α} (listed : list ∈ lists) {entry : α} (inside : entry ∈ list) :
    ∃ item ∈ items, same item entry = true := by
  obtain ⟨position, there⟩ := exists_entryAt?_iff.mpr ⟨list, listed, inside⟩
  exact joins.complete position entry there

/-- Of two spellings of one directory the one in front stays. -/
example : mergeLists Path.same [[⟨"a/b"⟩], [⟨"c"⟩, ⟨"a//b"⟩, ⟨"c/"⟩]] = [⟨"a/b"⟩, ⟨"c"⟩] := by
  decide

/-! ### Values of the nearest layer -/

/-- The layer nearest to the leaf that sets something sets this value; whatever stands
behind that layer has no part in it. -/
def Nearest {β : Type} (chain : List Layer) (get : Layer → Option β) (value : β) : Prop :=
  ∃ before layer behind, chain = before ++ layer :: behind ∧ get layer = some value ∧
    ∀ other ∈ before, get other = none

theorem findSome?_eq_some_iff_nearest {β : Type} {chain : List Layer} {get : Layer → Option β}
    {value : β} : chain.findSome? get = some value ↔ Nearest chain get value :=
  List.findSome?_eq_some_iff

theorem lookup_mergeEnvironment (env : Ordered.Table String) (more : List (String × String))
    (key : String) :
    (mergeEnvironment env more).lookup key = (env.lookup key).or (more.lookup key) := by
  induction more generalizing env with
  | nil => simp [mergeEnvironment]
  | cons entry more ih =>
    obtain ⟨name, value⟩ := entry
    change (mergeEnvironment (if (env.lookup name).isSome then env
      else env.put name value) more).lookup key = _
    rw [ih, List.lookup_cons]
    -- Either the name is the one that is asked, and is set if it was not, or it does not touch the
    -- lookup.
    by_cases equal : key = name
    · subst equal
      cases set : env.lookup key with
      | some own => simp [set]
      | none => simp [Ordered.Table.lookup_put]
    · have different : (key == name) = false := by simpa using equal
      rw [different]
      split
      next => rfl
      next => rw [Ordered.Table.lookup_put, if_neg equal]

/-- Of all layers the first one that sets an environment entry decides it. -/
theorem lookup_env_flatten (chain : List Layer) (key : String) :
    (flatten chain).env.lookup key = chain.findSome? (·.env.lookup key) := by
  suffices gathered : ∀ env : Ordered.Table String,
      (chain.foldl (fun env layer => mergeEnvironment env layer.env.entries) env).lookup key =
        (env.lookup key).or (chain.findSome? (·.env.lookup key)) by
    exact (gathered ∅).trans (Option.none_or ..)
  induction chain with
  | nil => simp
  | cons layer chain ih =>
    intro env
    rw [List.foldl_cons, ih, lookup_mergeEnvironment, List.findSome?_cons, Option.or_assoc,
      ← Ordered.Table.lookup]
    cases layer.env.lookup key <;> rfl

/-! ### Sets -/

/-- The set has the members of the sets and no others. -/
structure Unites (sets : List (List String)) (united : List String) : Prop where
  members : ∀ member, member ∈ united ↔ ∃ set ∈ sets, member ∈ set
  increasing : united.Pairwise (· < ·)

theorem unites_unite (sets : List (List String)) : Unites sets (unite sets) := by
  -- The sets are gathered onto what was there before, so what is shown by induction is told of any
  -- increasing list in front of them.
  suffices gathered : ∀ members : List String, members.Pairwise (· < ·) →
      (∀ member, member ∈ sets.foldl Ordered.insertAll members ↔
        member ∈ members ∨ ∃ set ∈ sets, member ∈ set) ∧
      (sets.foldl Ordered.insertAll members).Pairwise (· < ·) by
    obtain ⟨members, increasing⟩ := gathered [] .nil
    exact ⟨fun member => (members member).trans (by simp), increasing⟩
  induction sets with
  | nil => exact fun members increasing => ⟨by simp, increasing⟩
  | cons set sets ih =>
    intro members increasing
    obtain ⟨all, increasing'⟩ := ih _ (Ordered.increasing_insertAll set increasing)
    refine ⟨fun member => ?_, increasing'⟩
    rw [List.foldl_cons, all, Ordered.mem_insertAll, or_assoc, List.exists_mem_cons_iff]

/-! ### The whole configuration -/

/-- What a configuration owes to the layers of its chain. -/
structure Merges (chain : List Layer) (config : EffectiveConfig) : Prop where
  suffixes : Joins (· == ·) (chain.map (·.suffixes)) config.suffixes
  excludes : Joins (· == ·) (chain.map (·.excludes)) config.excludes
  toolDirs : Joins Path.same (chain.map (·.toolDirs)) config.toolDirs
  libraryDirs : Joins Path.same (chain.map (·.libraryDirs)) config.libraryDirs
  substitutions : config.substitutions = (chain.map (·.substitutions)).flatten
  features : Unites (chain.map (·.features)) config.features
  tools : Unites (chain.map (·.tools)) config.tools
  requiredTools : Unites (chain.map (·.requiredTools)) config.requiredTools
  libraries : Unites (chain.map (·.libraries)) config.libraries
  env : ∀ key value, config.env.lookup key = some value ↔
    Nearest chain (·.env.lookup key) value
  name : ∀ value, Nearest chain (·.name) value → config.name = value
  sourceRoot : ∀ value, Nearest chain (·.sourceRoot) value → config.sourceRoot = value
  execRoot : ∀ value, Nearest chain (·.execRoot) value → config.execRoot = value
  target : ∀ value, config.target = some value ↔ Nearest chain (·.target) value
  unsupported : ∀ value, Nearest chain (·.unsupported) value → config.unsupported = value
  /-- An empty shell stands for the default one. -/
  shell : ∀ value, Nearest chain (·.shell) value →
    config.shell = if value = [] then defaultShell else value
  /-- No seconds stand for no limit. -/
  timeout : ∀ value, Nearest chain (·.timeout) value →
    config.timeoutSecs = if value = 0 then none else some value
  exeSuffix : ∀ value, Nearest chain (·.naming.exeSuffix) value → config.naming.exeSuffix = value
  shlibPrefix : ∀ value, Nearest chain (·.naming.shlibPrefix) value →
    config.naming.shlibPrefix = value
  shlibExt : ∀ value, Nearest chain (·.naming.shlibExt) value → config.naming.shlibExt = value

/-- A value with a default is what the nearest layer says. -/
theorem getD_of_nearest {β : Type} {chain : List Layer} {get : Layer → Option β} {value : β}
    (nearest : Nearest chain get value) (default : β) :
    (chain.findSome? get).getD default = value := by
  rw [findSome?_eq_some_iff_nearest.mpr nearest, Option.getD_some]

theorem joins_strings (lists : List (List String)) :
    Joins (· == ·) lists (mergeLists (· == ·) lists) :=
  joins_mergeLists (by simp) (by simp) lists

theorem joins_paths (lists : List (List Path)) :
    Joins Path.same lists (mergeLists Path.same lists) :=
  joins_mergeLists (fun _ => Path.same_iff.mpr rfl)
    (fun _ _ _ first second =>
      Path.same_iff.mpr ((Path.same_iff.mp first).trans (Path.same_iff.mp second))) lists

/-- Flattening merges every chain of layers. -/
theorem flatten_merges (chain : List Layer) : Merges chain (flatten chain) where
  suffixes := joins_strings _
  excludes := joins_strings _
  toolDirs := joins_paths _
  libraryDirs := joins_paths _
  substitutions := List.flatMap_def
  features := unites_unite _
  tools := unites_unite _
  requiredTools := unites_unite _
  libraries := unites_unite _
  env key value := by rw [lookup_env_flatten, findSome?_eq_some_iff_nearest]
  name _ nearest := getD_of_nearest nearest _
  sourceRoot _ nearest := getD_of_nearest nearest _
  execRoot _ nearest := getD_of_nearest nearest _
  target _ := findSome?_eq_some_iff_nearest
  unsupported _ nearest := getD_of_nearest nearest _
  shell value nearest := by
    have set := findSome?_eq_some_iff_nearest.mpr nearest
    simp only [flatten, set]
    cases value <;> rfl
  timeout value nearest := by
    have set := findSome?_eq_some_iff_nearest.mpr nearest
    simp only [flatten, set]
    by_cases zero : value = 0
    · rw [if_pos zero, zero]
      rfl
    · have positive : 0 < value := UInt64.pos_iff_ne_zero.mpr zero
      rw [if_neg zero, Option.filter_some, if_pos (decide_eq_true positive)]
  exeSuffix _ nearest := getD_of_nearest nearest _
  shlibPrefix _ nearest := getD_of_nearest nearest _
  shlibExt _ nearest := getD_of_nearest nearest _

end SuiteRunner.Config
