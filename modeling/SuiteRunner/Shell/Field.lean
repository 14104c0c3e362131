import SuiteRunner.Shell.Glob
import SuiteRunner.Text.Utf8

/-!
# Fields

What the parts of a word expand to, as characters that remember whether they were quoted.
Unquoted values are cut at the separators; what was quoted stays in one field, even if it
is empty.
-/

namespace SuiteRunner.Shell

/-- What the parts of a word expand to. -/
inductive Piece where
  | char (c : Char) (quoted : Bool)
  /-- Something quoted that may be empty. -/
  | mark
  | gap
  /-- The end of one argument where all arguments are listed. -/
  | cut
  deriving DecidableEq, Repr

def quotedPieces (text : String) : List Piece := .mark :: text.toList.map (.char · true)

/-- An unquoted value, to be cut at the separators if `splits` says so. -/
def plainPieces (splits : Bool) (separators text : String) : List Piece :=
  text.toList.map fun c =>
    if splits && separators.toList.contains c then .gap else .char c false

/-- Cut pieces into fields; `current` is the field that is being put together, backwards. -/
def fields (current : Option (List Marked)) : List Piece → List (List Marked)
  | [] => (current.map List.reverse).toList
  | .char c quoted :: pieces => fields (some ((c, quoted) :: current.getD [])) pieces
  | .mark :: pieces => fields (some (current.getD [])) pieces
  | .gap :: pieces | .cut :: pieces => (current.map List.reverse).toList ++ fields none pieces

/-- The characters of pieces that are not cut into fields. -/
def marked (pieces : List Piece) : List Marked :=
  pieces.filterMap fun piece =>
    match piece with
    | .char c quoted => some (c, quoted)
    | .gap | .cut => some (' ', false)
    | .mark => none

def textOf (pieces : List Piece) : String := unmarked (marked pieces)

/-- What a command prints, without the line ends at its end. -/
def trimmedOutput (bytes : ByteArray) : String :=
  let cs := (Text.ofBytes bytes).toList.filter (· != '\x00')
  String.ofList (cs.reverse.dropWhile (· == '\n')).reverse

end SuiteRunner.Shell
