import SuiteRunner.Path.Basic
import SuiteRunner.Files.Error

/-!
# File trees

A file tree maps places, each a list of names from the root, to what stands there. Names
are bytes, in packed texts. A path leads to a place by walking: its names go down, `..`
goes up from where the walk really is, and a symbolic link is replaced by its target. The
number of links that one walk may follow is limited, so every walk ends.
-/

namespace SuiteRunner.Files

/-- A place in the tree, as the names that lead to it from the root. -/
abbrev Place : Type := List String

inductive Entry where
  | file (content : ByteArray) (executable : Bool)
  | directory
  | link (target : String)
  /-- A device that swallows what is written and has nothing to read. -/
  | sink

structure FileTree where
  entries : List (Place × Entry) := []
  /-- Where relative paths start. -/
  workingDirectory : Place := []

/-- What a walk still has to do. -/
inductive Step where
  | stay
  | up
  | down (name : String)
  deriving DecidableEq, Repr

/-- How a walk treats the last name of its path. -/
structure Mode where
  followLast : Bool := true
  /-- Whether nothing need stand there yet. -/
  mayBeMissing : Bool := false

def linkLimit : Nat := 40

def nameLimit : Nat := 255

def pathLimit : Nat := 4096

def stepOf (segment : List Char) : Step :=
  if Path.isSilent segment then .stay
  else if segment = ['.', '.'] then .up
  else .down (String.ofList segment)

def stepsOf (path : Path) : List Step := path.segments.map stepOf

def Place.path (place : Place) : Path := ⟨"/" ++ "/".intercalate place⟩

namespace FileTree

def entry? (tree : FileTree) (place : Place) : Option Entry :=
  if place.isEmpty then some .directory else tree.entries.lookup place

/-- Walk on from the directory `here`; `follow` walks on behind a link, with its target, the
directory it is in and what is left to do. -/
def walkOn (tree : FileTree) (mode : Mode)
    (follow : String → Place → List Step → Except Failure Place) (here : Place) :
    (steps : List Step) → Except Failure Place
  | [] => .ok here
  | .stay :: steps => tree.walkOn mode follow here steps
  | .up :: steps => tree.walkOn mode follow here.dropLast steps
  | .down name :: steps =>
    let there := here ++ [name]
    if nameLimit < name.length then .error .nameTooLong
    else
      match tree.entry? there with
      | none =>
        if mode.mayBeMissing && steps.all (· == .stay) then .ok there else .error .notFound
      | some .directory => tree.walkOn mode follow there steps
      | some (.file _ _) | some .sink =>
        if steps.isEmpty then .ok there else .error .notADirectory
      | some (.link target) =>
        if steps.isEmpty && !mode.followLast then .ok there else follow target here steps

/-- Walk on from the directory `here`, following no more than so many links. -/
def walk (tree : FileTree) (mode : Mode) : (links : Nat) → (here : Place) →
    (steps : List Step) → Except Failure Place
  | 0 => tree.walkOn mode fun _ _ _ => .error .tooManyLinks
  | links + 1 => tree.walkOn mode fun target here steps =>
    let path : Path := ⟨target⟩
    if target.isEmpty then .error .notFound
    else tree.walk mode links (if path.isAbsolute then [] else here) (stepsOf path ++ steps)

/-- The place a path leads to. -/
def locate (tree : FileTree) (path : Path) (mode : Mode) : Except Failure Place :=
  if path.text.toList.contains '\x00' then .error .nulInName
  else if path.text.isEmpty then .error .notFound
  else if pathLimit ≤ path.text.length then .error .nameTooLong
  else
    tree.walk mode linkLimit (if path.isAbsolute then [] else tree.workingDirectory) (stepsOf path)

/-! ### Looking -/

/-- What stands at the end of a path, links followed. -/
def find (tree : FileTree) (path : Path) : Except Failure Entry :=
  match tree.locate path {} with
  | .error failure => .error failure
  | .ok place => (tree.entry? place).elim (.error .notFound) .ok

def isFile (tree : FileTree) (path : Path) : Bool :=
  match tree.find path with
  | .ok (.file _ _) => true
  | _ => false

def isDirectory (tree : FileTree) (path : Path) : Bool :=
  match tree.find path with
  | .ok .directory => true
  | _ => false

def isExecutable (tree : FileTree) (path : Path) : Bool :=
  match tree.find path with
  | .ok (.file _ executable) => executable
  | _ => false

def read (tree : FileTree) (path : Path) : Except Failure ByteArray :=
  match tree.find path with
  | .error failure => .error failure
  | .ok (.file content _) => .ok content
  | .ok .sink => .ok .empty
  | .ok _ => .error .isADirectory

/-- The name of what stands directly below a place. -/
def nameBelow? (place : Place) (other : Place) : Option String :=
  match place, other with
  | [], [name] => some name
  | p :: place, o :: other => if p = o then nameBelow? place other else none
  | _, _ => none

def namesAt (tree : FileTree) (place : Place) : List String :=
  tree.entries.filterMap fun (other, _) => nameBelow? place other

/-- The names in a directory, in no particular order. -/
def names (tree : FileTree) (path : Path) : Except Failure (List String) :=
  match tree.locate path {} with
  | .error failure => .error failure
  | .ok place =>
    match tree.entry? place with
    | some .directory => .ok (tree.namesAt place)
    | some _ => .error .notADirectory
    | none => .error .notFound

/-- The one absolute path without links, `.` and `..` that leads to the same place. -/
def canonical? (tree : FileTree) (path : Path) : Option Path :=
  match tree.locate path {} with
  | .ok place => some place.path
  | .error _ => none

/-- The identity of a path: its canonical form if it leads somewhere, and otherwise its
absolute form, kept as it is written. -/
def key (tree : FileTree) (path : Path) : Path :=
  (tree.canonical? path).getD
    ((Path.absolute? tree.workingDirectory.path path).getD path)

/-! ### Changing -/

def isBelow (place other : Place) : Bool := place.isPrefixOf other

def put (tree : FileTree) (place : Place) (entry : Entry) : FileTree :=
  if (tree.entries.lookup place).isSome then
    { tree with entries := tree.entries.map fun (p, e) => if p = place then (p, entry) else (p, e) }
  else { tree with entries := tree.entries ++ [(place, entry)] }

/-- Remove what stands at a place, with everything below it. -/
def removeAt (tree : FileTree) (place : Place) : FileTree :=
  { tree with entries := tree.entries.filter fun (p, _) => !isBelow place p }

/-- Make one directory, whose parent must be there already. -/
def makeDirectory (tree : FileTree) (path : Path) : Except Failure FileTree :=
  match tree.locate path ⟨false, true⟩ with
  | .error failure => .error failure
  | .ok place =>
    match tree.entry? place with
    | some _ => .error .alreadyExists
    | none => .ok (tree.put place .directory)

/-- Make a directory and all that are missing above it; one that is there already is fine. The
bound `fuel` is the number of directories that may be missing. -/
def makeDirectoriesUpTo (fuel : Nat) (tree : FileTree) (path : Path) : Except Failure FileTree :=
  match fuel with
  | 0 => .error .notFound
  | fuel + 1 =>
    if path.text.isEmpty then .ok tree
    else
      match tree.makeDirectory path with
      | .ok made => .ok made
      | .error .notFound =>
        match path.parent? with
        | none => .error .notFound
        | some parent =>
          match makeDirectoriesUpTo fuel tree parent with
          | .error failure => .error failure
          | .ok tree =>
            match tree.makeDirectory path with
            | .ok made => .ok made
            | .error failure => if tree.isDirectory path then .ok tree else .error failure
      | .error failure => if tree.isDirectory path then .ok tree else .error failure

def makeDirectories (tree : FileTree) (path : Path) : Except Failure FileTree :=
  makeDirectoriesUpTo (path.components.length + 1) tree path

/-- Write a file, which need not be there before; its executable bit stays. -/
def write (tree : FileTree) (path : Path) (content : ByteArray) : Except Failure FileTree :=
  match tree.locate path ⟨true, true⟩ with
  | .error failure => .error failure
  | .ok place =>
    match tree.entry? place with
    | none => .ok (tree.put place (.file content false))
    | some (.file _ executable) => .ok (tree.put place (.file content executable))
    | some .sink => .ok tree
    | some _ => .error .isADirectory

def setExecutable (tree : FileTree) (path : Path) (executable : Bool) : Except Failure FileTree :=
  match tree.locate path {} with
  | .error failure => .error failure
  | .ok place =>
    match tree.entry? place with
    | some (.file content _) => .ok (tree.put place (.file content executable))
    | some _ => .ok tree
    | none => .error .notFound

def makeLink (tree : FileTree) (path : Path) (target : String) : Except Failure FileTree :=
  match tree.locate path ⟨false, true⟩ with
  | .error failure => .error failure
  | .ok place =>
    match tree.entry? place with
    | some _ => .error .alreadyExists
    | none => .ok (tree.put place (.link target))

/-- Remove a file, a link or a whole directory. -/
def remove (tree : FileTree) (path : Path) : Except Failure FileTree :=
  match tree.locate path ⟨false, false⟩ with
  | .error failure => .error failure
  | .ok place => .ok (tree.removeAt place)

/-- Go to a directory. -/
def enter (tree : FileTree) (path : Path) : Except Failure FileTree :=
  match tree.locate path {} with
  | .error failure => .error failure
  | .ok place =>
    match tree.entry? place with
    | some .directory => .ok { tree with workingDirectory := place }
    | _ => .error .notADirectory

end FileTree

end SuiteRunner.Files
