/-!
# Sorted keys

Maps and sets whose entries are listed in the order of their keys, each key once. A key
is a text, and texts are ordered by their characters, which is also the order of their
bytes.
-/

namespace SuiteRunner.Ordered

/-- Set the value of a key. -/
def put {α : Type} (key : String) (value : α) : List (String × α) → List (String × α)
  | [] => [(key, value)]
  | (k, v) :: entries =>
    if key = k then (key, value) :: entries
    else if key < k then (key, value) :: (k, v) :: entries
    else (k, v) :: put key value entries

/-- Add a member to a set. -/
def insert (member : String) : List String → List String
  | [] => [member]
  | m :: members =>
    if member = m then m :: members
    else if member < m then member :: m :: members
    else m :: insert member members

def insertAll (members : List String) (found : List String) : List String :=
  found.foldl (fun members member => insert member members) members

/-! ### Small laws -/

theorem lt_of_not_lt {a b : String} (different : a ≠ b) (notBelow : ¬ a < b) : b < a := by
  by_cases below : b < a
  · exact below
  · exact absurd (String.le_antisymm below notBelow) different

theorem lookup_put {α : Type} (key : String) (value : α) (entries : List (String × α))
    (asked : String) :
    (put key value entries).lookup asked =
      if asked = key then some value else entries.lookup asked := by
  induction entries with
  | nil =>
    by_cases h : asked = key
    · subst h; simp [put]
    · have : (asked == key) = false := by simpa using h
      simp [put, List.lookup_cons, this, h]
  | cons entry entries ih =>
    obtain ⟨k, v⟩ := entry
    by_cases h : asked = key
    · subst h
      unfold put
      split
      next same => subst same; simp
      next other =>
        have : (asked == k) = false := by simpa using other
        split
        · simp
        · simp [List.lookup_cons, this, ih]
    · have differs : (asked == key) = false := by simpa using h
      unfold put
      split
      next same => subst same; simp [List.lookup_cons, differs]
      next other =>
        split
        · simp [List.lookup_cons, differs]
        · simp only [List.lookup_cons, ih, h, if_false]

theorem mem_insert (member : String) (members : List String) (asked : String) :
    asked ∈ insert member members ↔ asked = member ∨ asked ∈ members := by
  induction members with
  | nil => simp [insert]
  | cons m members ih =>
    unfold insert
    split
    next same => subst same; simp
    next =>
      split
      · simp
      · simp only [List.mem_cons, ih]; exact or_left_comm

/-! ### Tables -/

section

variable {α : Type}

/-- The keys increase strictly. -/
def KeysIncrease (entries : List (String × α)) : Prop :=
  entries.Pairwise (·.1 < ·.1)

theorem mem_put {key : String} {value : α} {entries : List (String × α)} {entry : String × α}
    (member : entry ∈ put key value entries) : entry = (key, value) ∨ entry ∈ entries := by
  induction entries with
  | nil => simpa [put] using member
  | cons head entries ih =>
    obtain ⟨k, v⟩ := head
    unfold put at member
    split at member
    · rcases List.mem_cons.mp member with new | old
      · exact .inl new
      · exact .inr (List.mem_cons_of_mem _ old)
    · split at member
      · exact List.mem_cons.mp member
      · rcases List.mem_cons.mp member with first | later
        · exact .inr (first ▸ List.mem_cons_self)
        · rcases ih later with new | old
          · exact .inl new
          · exact .inr (List.mem_cons_of_mem _ old)

theorem keysIncrease_put (key : String) (value : α) {entries : List (String × α)}
    (increase : KeysIncrease entries) : KeysIncrease (put key value entries) := by
  induction entries with
  | nil => exact List.pairwise_singleton _ _
  | cons head entries ih =>
    obtain ⟨k, v⟩ := head
    obtain ⟨above, rest⟩ := List.pairwise_cons.mp increase
    -- The entry replaces the first one, comes in front of it, or goes behind it, where the first
    -- one stays below all others.
    unfold put
    split
    next same =>
      subst same
      exact List.pairwise_cons.mpr ⟨above, rest⟩
    next different =>
      split
      next below =>
        refine List.pairwise_cons.mpr ⟨?_, List.pairwise_cons.mpr ⟨above, rest⟩⟩
        intro entry member
        rcases List.mem_cons.mp member with rfl | member
        · exact below
        · exact String.lt_trans below (above entry member)
      next notBelow =>
        refine List.pairwise_cons.mpr ⟨?_, ih rest⟩
        intro entry member
        rcases mem_put member with rfl | member
        · exact lt_of_not_lt different notBelow
        · exact above entry member

end

/-- A map from texts. -/
structure Table (α : Type) where
  entries : List (String × α)
  increasing : KeysIncrease entries
  deriving DecidableEq

namespace Table

variable {α : Type}

instance : EmptyCollection (Table α) := ⟨⟨[], List.Pairwise.nil⟩⟩

def lookup (table : Table α) (key : String) : Option α := table.entries.lookup key

def put (table : Table α) (key : String) (value : α) : Table α :=
  ⟨Ordered.put key value table.entries, keysIncrease_put key value table.increasing⟩

/-- Of several entries with one key the last one counts. -/
def ofList (entries : List (String × α)) : Table α :=
  entries.foldl (fun table (key, value) => table.put key value) ∅

@[simp] theorem lookup_empty (key : String) : (∅ : Table α).lookup key = none := rfl

theorem lookup_put (table : Table α) (key : String) (value : α) (asked : String) :
    (table.put key value).lookup asked = if asked = key then some value else table.lookup asked :=
  Ordered.lookup_put key value table.entries asked

end Table

end SuiteRunner.Ordered
