import SuiteRunner.Files.Tree

/-!
# File name patterns

A pattern in which some characters were quoted and stand for themselves. Of the others, a
star matches any text, a question mark one character, and a bracket one of those listed.
-/

namespace SuiteRunner.Shell

open Files

/-- A character, and whether it was quoted. -/
abbrev Marked : Type := Char × Bool

def plain (text : String) : List Marked := text.toList.map (·, false)

def unmarked (pattern : List Marked) : String := String.ofList (pattern.map (·.1))

def isSpecialMark : Marked → Bool
  | (c, quoted) => !quoted && (c == '*' || c == '?' || c == '[')

/-- Whether a character is listed in a bracket. -/
def listed (c : Char) : List Char → Bool
  | first :: '-' :: last :: rest => (first ≤ c && c ≤ last) || listed c rest
  | d :: rest => c == d || listed c rest
  | [] => false

/-- What a bracket lists, behind its opening, and what follows it. -/
def bracket? (pattern : List Marked) : Option (List Char × List Marked) :=
  match pattern with
  | first :: rest =>
    let inside := rest.takeWhile fun (c, _) => c != ']'
    match rest.drop inside.length with
    | _ :: behind => some ((first :: inside).map (·.1), behind)
    | [] => none
  | [] => none

/-- Whether a bracket accepts a character. -/
def bracketAccepts (c : Char) (inside : List Char) : Bool :=
  match inside with
  | '!' :: inside | '^' :: inside => !listed c inside
  | inside => listed c inside

theorem bracket?_shorter {pattern rest : List Marked} {inside : List Char}
    (h : bracket? pattern = some (inside, rest)) : rest.length < pattern.length := by
  unfold bracket? at h
  split at h
  next first tail =>
    simp only at h
    split at h
    next behind found =>
      simp only [Option.some.injEq, Prod.mk.injEq] at h
      obtain ⟨-, rfl⟩ := h
      have := congrArg List.length found
      simp only [List.length_drop, List.length_cons] at this
      simp only [List.length_cons]
      omega
    · simp at h
  · simp at h

/-- Whether a pattern matches a whole text. -/
def matchesGlob (pattern : List Marked) (text : List Char) : Bool :=
  match pattern, text with
  | [], [] => true
  | [], _ :: _ => false
  | ('*', false) :: rest, [] => matchesGlob rest []
  | ('*', false) :: rest, c :: text =>
    matchesGlob rest (c :: text) || matchesGlob (('*', false) :: rest) text
  | ('?', false) :: rest, _ :: text => matchesGlob rest text
  | ('[', false) :: rest, c :: text =>
    match found : bracket? rest with
    | some (inside, behind) =>
      have := bracket?_shorter found
      bracketAccepts c inside && matchesGlob behind text
    | none => c == '[' && matchesGlob rest text
  | (p, _) :: rest, c :: text => p == c && matchesGlob rest text
  | _ :: _, [] => false
termination_by (pattern.length, text.length)

/-! ### Paths -/

/-- The pieces of a pattern between the slashes. -/
def globSegments : List Marked → List (List Marked)
  | [] => [[]]
  | (c, quoted) :: rest =>
    if c = '/' then [] :: globSegments rest
    else
      match globSegments rest with
      | [] => [[(c, quoted)]]
      | segment :: segments => ((c, quoted) :: segment) :: segments

/-- The names in a directory that a segment matches; hidden ones only if it says so. -/
def matchingNames (tree : FileTree) (directory : String) (segment : List Marked) : List String :=
  let names := (tree.names ⟨if directory.isEmpty then "." else directory⟩).toOption.getD []
  let hidden := (segment.head?.map (·.1)) == some '.'
  (names.filter fun name =>
    (hidden || !name.startsWith ".") && matchesGlob segment name.toList).mergeSort (· ≤ ·)

/-- All paths behind `start` that the segments match. -/
def expandSegments (tree : FileTree) (start : String) : List (List Marked) → List String
  | [] => [start]
  | segment :: segments =>
    let separator := if segments.isEmpty then "" else "/"
    if segment.any isSpecialMark then
      (matchingNames tree start segment).flatMap fun name =>
        expandSegments tree (start ++ name ++ separator) segments
    else expandSegments tree (start ++ unmarked segment ++ separator) segments

/-- The paths that a pattern matches, or its own text if there are none. -/
def expandGlob (tree : FileTree) (pattern : List Marked) : List String :=
  if pattern.any isSpecialMark then
    let paths := (expandSegments tree "" (globSegments pattern)).filter fun path =>
      (tree.find ⟨path⟩).isOk
    if paths.isEmpty then [unmarked pattern] else paths
  else [unmarked pattern]

/-! ### Beginnings and ends -/

/-- Remove the shortest or longest beginning that a pattern matches. -/
def dropMatchingStart (longest : Bool) (pattern : List Marked) (text : List Char) : List Char :=
  let lengths := List.range (text.length + 1)
  let lengths := if longest then lengths.reverse else lengths
  match lengths.find? fun n => matchesGlob pattern (text.take n) with
  | some n => text.drop n
  | none => text

/-- Remove the shortest or longest end that a pattern matches. -/
def dropMatchingEnd (longest : Bool) (pattern : List Marked) (text : List Char) : List Char :=
  let lengths := List.range (text.length + 1)
  let lengths := if longest then lengths else lengths.reverse
  match lengths.find? fun n => matchesGlob pattern (text.drop n) with
  | some n => text.take n
  | none => text

end SuiteRunner.Shell
