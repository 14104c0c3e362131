import SuiteRunner.Pattern.CharSet

/-!
# Patterns

A pattern says which stretches of a text it matches. Matching keeps no single path but the
set of all places where a match that starts here can end, so it always comes to an end
and finds a match whenever there is one.
-/

namespace SuiteRunner.Pattern

/-- A condition on a place in a text. -/
inductive Place where
  | textStart
  | textEnd
  | lineStart
  | lineEnd
  | wordBoundary
  | insideOrOutsideWord
  | wordStart
  | wordEnd
  deriving DecidableEq, Repr

inductive Node where
  | empty
  | one (set : CharSet)
  | place (place : Place)
  | both (first second : Node)
  | either (a b : Node)
  /-- At least `least` times, and at most `most` times if that is given. -/
  | repeated (node : Node) (least : Nat) (most : Option Nat)
  deriving DecidableEq, Repr

/-! ### Places -/

/-- Whether the character in front of a place is one of a word, and whether the one behind
it is. -/
def wordAround (text : Array Char) (position : Nat) : Bool × Bool :=
  (position != 0 && (text[position - 1]?).any isWord, (text[position]?).any isWord)

def Place.holds (text : Array Char) (position : Nat) : Place → Bool
  | textStart => position == 0
  | textEnd => position == text.size
  | lineStart => position == 0 || text[position - 1]? == some '\n'
  | lineEnd => position == text.size || text[position]? == some '\n'
  | wordBoundary => let (front, behind) := wordAround text position; front != behind
  | insideOrOutsideWord => let (front, behind) := wordAround text position; front == behind
  | wordStart => let (front, behind) := wordAround text position; !front && behind
  | wordEnd => let (front, behind) := wordAround text position; front && !behind

/-! ### Ends of matches -/

/-- The members of both lists, each once. -/
def merge (known found : List Nat) : List Nat :=
  found.foldl (fun known position => if known.contains position then known else position :: known)
    known

/-- Take one step from each of the places. -/
def stepAll (step : Nat → List Nat) (starts : List Nat) : List Nat :=
  starts.foldl (fun known start => merge known (step start)) []

/-- Take exactly `count` steps. -/
def steps (step : Nat → List Nat) : (count : Nat) → List Nat → List Nat
  | 0, starts => starts
  | count + 1, starts => steps step count (stepAll step starts)

/-- Take at most `count` steps; `fresh` are the places that no step was taken from. -/
def stepsUpTo (step : Nat → List Nat) : (count : Nat) → (known fresh : List Nat) → List Nat
  | 0, known, _ => known
  | count + 1, known, fresh =>
    let found := (stepAll step fresh).filter (!known.contains ·)
    if found.isEmpty then known else stepsUpTo step count (known ++ found) found

/-- Where a match that starts at `start` can end. -/
def ends (text : Array Char) : Node → (start : Nat) → List Nat
  | .empty, start => [start]
  | .one set, start =>
    match text[start]? with
    | some c => if set.contains c then [start + 1] else []
    | none => []
  | .place place, start => if place.holds text start then [start] else []
  | .both first second, start => stepAll (ends text second) (ends text first start)
  | .either a b, start => merge (ends text a start) (ends text b start)
  | .repeated node least most, start =>
    let starts := steps (ends text node) least [start]
    let more := match most with
      | some most => min (most - least) (text.size + 1)
      | none => text.size + 1
    stepsUpTo (ends text node) more starts starts

/-- Whether the pattern matches some stretch of a text. -/
def Node.occursIn (node : Node) (text : String) : Bool :=
  let text := text.toList.toArray
  (List.range (text.size + 1)).any fun start => !(ends text node start).isEmpty

end SuiteRunner.Pattern
