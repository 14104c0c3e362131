import SuiteRunner.Text.Basic
import SuiteRunner.Text.Utf8

/-!
# Paths

A path is kept as the bytes it was written with, in a packed text: they may not be UTF-8,
and what is printed and handed to commands is only shown from them. What a path denotes is
its list of components: repeated slashes and `.` inside a path mean nothing, a leading `.`
and every `..` do. Two spellings of one component list are the same place, and
comparisons, prefixes and parents all go by components.
-/

namespace SuiteRunner

structure Path where
  /-- The bytes, one in each character. -/
  text : String
  deriving DecidableEq, Repr, Inhabited

namespace Path

/-- The path that a text says. -/
def ofText (text : String) : Path := ⟨Text.pack text⟩

/-- The text that a path is shown as; what is not UTF-8 is not told apart in it. -/
def shown (path : Path) : String := Text.shown path.text

inductive Component where
  | root
  | here
  | up
  | name (text : String)
  deriving DecidableEq, Repr

/-! ### Segments and components -/

/-- The texts between the slashes. -/
def segments (path : Path) : List (List Char) := Text.split '/' path.text.toList

/-- Segments that stand for nothing. -/
def isSilent (segment : List Char) : Bool := segment.isEmpty || segment == ['.']

/-- What a segment denotes when it is not the leading one. -/
def component? (segment : List Char) : Option Component :=
  if isSilent segment then none
  else if segment = ['.', '.'] then some .up
  else some (.name (String.ofList segment))

/-- The segments that come first and the body behind them: the empty segment in front of
the first slash of an absolute path, or a leading `.`. -/
def leading : List (List Char) → List (List Char) × List (List Char)
  | [] :: second :: body => ([[]], second :: body)
  | ['.'] :: body => ([['.']], body)
  | body => ([], body)

def isAbsolute (path : Path) : Bool := path.text.toList.head? == some '/'

def components (path : Path) : List Component :=
  match leading path.segments with
  | ([['.']], body) => .here :: body.filterMap component?
  | ([_], body) => .root :: body.filterMap component?
  | (_, body) => body.filterMap component?

/-- Whether two spellings denote the same place. -/
def same (a b : Path) : Bool := a.components == b.components

theorem same_iff {a b : Path} : a.same b = true ↔ a.components = b.components := by
  simp [same]

/-! ### Going down and up -/

def join (base path : Path) : Path :=
  if path.isAbsolute then path
  else if base.text.isEmpty || base.text.toList.getLast? == some '/' then ⟨base.text ++ path.text⟩
  else ⟨base.text ++ "/" ++ path.text⟩

def child (base : Path) (name : String) : Path := base.join ⟨name⟩

/-- Written segments as one path; nothing behind the first slash leaves the root. -/
def ofSegments : List (List Char) → Path
  | [[]] => ⟨"/"⟩
  | segments => ⟨String.ofList (Text.join ['/'] segments)⟩

/-- The path without its last component, as far as its text was written. The root and the
empty path have none. -/
def parent? (path : Path) : Option Path :=
  let (start, body) := leading path.segments
  match body.reverse.dropWhile isSilent with
  | _ :: before => some (ofSegments (start ++ (before.dropWhile isSilent).reverse))
  | [] => if start = [['.']] then some ⟨""⟩ else none

/-- The path, its parent, and so on; no more of them than the bound. -/
def ancestorsUpTo (path : Path) : (bound : Nat) → List Path
  | 0 => []
  | bound + 1 => path :: (path.parent?.elim [] fun parent => ancestorsUpTo parent bound)

/-- The path, its parent, the parent of that, and so on to the last that has none. -/
def ancestors (path : Path) : List Path := path.ancestorsUpTo (path.components.length + 1)

/-- The last component, if it is a name. -/
def fileName? (path : Path) : Option String :=
  match path.components.getLast? with
  | some (.name text) => some text
  | _ => none

/-- Put `name` in the place of the last component if that is a name, and below the path
otherwise. -/
def withFileName (path : Path) (name : String) : Path :=
  match path.fileName? with
  | some _ => (path.parent?.getD path).child name
  | none => path.child name

/-! ### Prefixes -/

/-- Whether `path` is `base` or lies below it. -/
def startsWith (path base : Path) : Bool := base.components.isPrefixOf path.components

def Component.text : Component → String
  | root => "/"
  | here => "."
  | up => ".."
  | name text => text

/-- The components behind `base`, if the path starts with it. -/
def below? (base : List Component) (path : List Component) : Option (List Component) :=
  match base, path with
  | [], rest => some rest
  | _, [] => none
  | b :: base, p :: path => if b = p then below? base path else none

/-- The path as seen from `base`. -/
def relativeTo? (path base : Path) : Option Path :=
  (below? base.components path.components).map fun rest =>
    ⟨"/".intercalate (rest.map Component.text)⟩

/-! ### Absolute form -/

/-- The text an absolute path begins with; two slashes, and only two, are kept. -/
def rootText (path : Path) : String :=
  match path.text.toList with
  | '/' :: '/' :: '/' :: _ => "/"
  | '/' :: '/' :: _ => "//"
  | _ => "/"

/-- The path made absolute in `directory`, without consulting the file system: `.` and
repeated slashes go, `..` and a trailing slash stay. The empty path has no absolute form. -/
def absolute? (directory path : Path) : Option Path :=
  if path.text.isEmpty then none
  else
    let start : Path := if path.isAbsolute then ⟨path.rootText⟩ else directory
    let joined := path.components.foldl (fun sofar component =>
      match component with
      | .root | .here => sofar
      | component => sofar.child component.text) start
    some (if path.text.toList.getLast? == some '/' then joined.child "" else joined)

end Path

end SuiteRunner
