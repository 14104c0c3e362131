import SuiteRunner.Toml.Value

/-!
# Putting a document together

Headers and dotted keys build one tree, and a place in it may be defined only once. So
while a document is read, each table remembers how it came about: defined under its own
header or in braces, only implied by a longer header, or implied by a dotted key. A
table implied by a header may still be defined; one implied by a dotted key may only be
extended by dotted keys.
-/

namespace SuiteRunner.Toml

inductive Origin where
  | defined
  | impliedByHeader
  | impliedByKey
  deriving DecidableEq, Repr

/-- A place in a document under construction. -/
inductive Node where
  | value (value : Value)
  | table (origin : Origin) (entries : List (String × Node))
  /-- The tables of an array, the latest one first. -/
  | tables (latestFirst : List (Origin × List (String × Node)))

abbrev Entries : Type := List (String × Node)

namespace Entries

def get? (entries : Entries) (key : String) : Option Node := entries.lookup key

def add (entries : Entries) (key : String) (node : Node) : Entries := entries ++ [(key, node)]

/-- Put a node in the place of the one with this key. -/
def replace (entries : Entries) (key : String) (node : Node) : Entries :=
  entries.map fun (k, old) => if k = key then (k, node) else (k, old)

def erase (entries : Entries) (key : String) : Entries := entries.filter (·.1 != key)

end Entries

/-! ### Walking down -/

/-- What an edit of a table yields: a result, and the changed entries. -/
abbrev Edit (α : Type) : Type := Origin → Entries → Option (α × Entries)

/-- Edit the table at the end of a path, creating implied tables on the way. Dotted keys may
not enter a table that was defined on its own. -/
def editAt (dotted : Bool) : (path : List String) → Edit α → Edit α
  | [], edit => edit
  | key :: path, edit => fun _ entries =>
    let implied := if dotted then Origin.impliedByKey else .impliedByHeader
    match entries.get? key with
    | none => do
      let (result, inner) ← editAt dotted path edit implied []
      return (result, entries.add key (.table implied inner))
    | some (.value _) => none
    | some (.table origin inner) =>
      if dotted ∧ origin = .defined then none
      else do
        let (result, inner) ← editAt dotted path edit origin inner
        return (result, entries.replace key (.table origin inner))
    | some (.tables []) => none
    | some (.tables ((origin, inner) :: older)) => do
      let (result, inner) ← editAt dotted path edit origin inner
      return (result, entries.replace key (.tables ((origin, inner) :: older)))

/-- Set one key of a table. A dotted key ends in a table that dotted keys made, a plain key
in one that they did not. -/
def setKey (plain : Bool) (key : String) (node : Node) : Edit Unit := fun origin entries =>
  if (origin == .impliedByKey) == plain then none
  else if (entries.get? key).isSome then none
  else some ((), entries.add key node)

/-- Set the value at a possibly dotted key. -/
def assign (key : List String) (node : Node) (origin : Origin) (entries : Entries) :
    Option Entries :=
  match key.reverse with
  | [] => none
  | last :: start =>
    (editAt true start.reverse (setKey start.isEmpty last node) origin entries).map (·.2)

/-! ### Finished values -/

mutual

def Node.toValue : Node → Value
  | .value value => value
  | .table _ entries => .table (entriesToValues entries)
  | .tables latestFirst => .array (tablesToValues latestFirst).reverse

def entriesToValues : List (String × Node) → List (String × Value)
  | [] => []
  | (key, node) :: entries => (key, node.toValue) :: entriesToValues entries

def tablesToValues : List (Origin × List (String × Node)) → List Value
  | [] => []
  | (_, entries) :: tables => .table (entriesToValues entries) :: tablesToValues tables

end

/-! ### Headers -/

/-- A document under construction: the tables that are complete, and the one that the latest
header opened. -/
structure Draft where
  entries : Entries := []
  /-- The path of the open table; nothing while keys still belong to the document itself. -/
  path : List String := []
  isArray : Bool := false
  openOrigin : Origin := .defined
  openEntries : Entries := []

namespace Draft

/-- Put the open table in its place. -/
def close (draft : Draft) : Option Draft :=
  match draft.path.reverse with
  | [] => some { draft with entries := draft.openEntries, openEntries := [] }
  | last :: start =>
    let place : Edit Unit := fun _ entries =>
      if draft.isArray then
        match entries.get? last with
        | some (.tables older) =>
          some ((), entries.replace last
            (.tables ((draft.openOrigin, draft.openEntries) :: older)))
        | _ => none
      else some ((), entries.add last (.table draft.openOrigin draft.openEntries))
    (editAt false start.reverse place .defined draft.entries).map fun (_, entries) =>
      { draft with entries, openEntries := [] }

/-- Open the table of a header. One that is only implied by longer headers is taken up again,
and moves behind the tables that were complete before. -/
def openTable (draft : Draft) (path : List String) : Option Draft := do
  let draft ← draft.close
  match path.reverse with
  | [] => none
  | last :: start =>
    let take : Edit Entries := fun _ entries =>
      match entries.get? last with
      | none => some ([], entries)
      | some (.table .impliedByHeader inner) => some (inner, entries.erase last)
      | some _ => none
    let (inner, entries) ← editAt false start.reverse take .defined draft.entries
    return { entries, path, isArray := false, openOrigin := .defined, openEntries := inner }

/-- Open a further table of an array of tables. -/
def openArrayTable (draft : Draft) (path : List String) : Option Draft := do
  let draft ← draft.close
  match path.reverse with
  | [] => none
  | last :: start =>
    let reserve : Edit Unit := fun _ entries =>
      match entries.get? last with
      | none => some ((), entries.add last (.tables []))
      | some (.tables _) => some ((), entries)
      | some _ => none
    let (_, entries) ← editAt false start.reverse reserve .defined draft.entries
    return { entries, path, isArray := true, openOrigin := .defined, openEntries := [] }

def set (draft : Draft) (key : List String) (value : Node) : Option Draft :=
  (assign key value draft.openOrigin draft.openEntries).map fun entries =>
    { draft with openEntries := entries }

/-- The finished document. -/
def finish (draft : Draft) : Option (List (String × Value)) :=
  draft.close.map fun draft => entriesToValues draft.entries

end Draft

end SuiteRunner.Toml
