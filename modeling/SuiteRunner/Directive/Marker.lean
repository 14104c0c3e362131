import SuiteRunner.Text.Basic

/-!
# Directive markers

A directive is announced by one of five marker words anywhere on a line, as long as
no word character stands directly in front of it: `xRUN:` announces nothing. Each
marker is searched for on its own, skipping over the places where it is glued to a
word, and of the finds the leftmost one counts.
-/

namespace SuiteRunner.Directive

inductive Marker where
  | run
  | requires
  | xfail
  | unsupported
  | stop
  deriving DecidableEq, Repr

namespace Marker

def all : List Marker := [run, requires, xfail, unsupported, stop]

/-- The name under which error messages speak of the directive. -/
def name : Marker → String
  | run => "RUN"
  | requires => "REQUIRES"
  | xfail => "XFAIL"
  | unsupported => "UNSUPPORTED"
  | stop => "END"

/-- The characters that announce the directive. -/
def word : Marker → List Char
  | run => "RUN:".toList
  | requires => "REQUIRES:".toList
  | xfail => "XFAIL:".toList
  | unsupported => "UNSUPPORTED:".toList
  | stop => "END.".toList

end Marker

/-! ### Searching a line -/

/-- A marker is glued when the character in front of it belongs to a word. -/
def glues (before : Option Char) : Bool :=
  match before with
  | none => false
  | some c => Text.isAsciiAlphanumeric c || c == '_'

/-- A place at which a word was found: how many characters precede it, and the text after it. -/
structure Find where
  position : Nat
  rest : List Char
  deriving DecidableEq, Repr

theorem length_le_of_after? {start cs rest : List Char} (h : Text.after? start cs = some rest) :
    rest.length ≤ cs.length := by
  rw [Text.eq_append_of_after? h]
  simp

/-- The first place at or after `position` where the word `w :: word` stands unglued. After a
glued occurrence the search goes on behind its last character. -/
def findUnglued (w : Char) (word : List Char) (position : Nat) (before : Option Char) :
    List Char → Option Find
  | [] => none
  | c :: rest =>
    if w = c then
      match found : Text.after? word rest with
      | some after =>
        have : after.length ≤ rest.length := length_le_of_after? found
        if glues before then
          findUnglued w word (position + word.length + 1) (some (word.getLast?.getD w)) after
        else some ⟨position, after⟩
      | none => findUnglued w word (position + 1) (some c) rest
    else findUnglued w word (position + 1) (some c) rest
termination_by cs => cs.length

def Marker.find (marker : Marker) (line : List Char) : Option Find :=
  match marker.word with
  | [] => none
  | w :: word => findUnglued w word 0 none line

/-- Of two finds the earlier one; the first argument wins a tie. -/
def earlier (best candidate : Option (Marker × Find)) : Option (Marker × Find) :=
  match best, candidate with
  | none, candidate => candidate
  | best, none => best
  | some (m, f), some (n, g) => if g.position < f.position then some (n, g) else some (m, f)

/-- The leftmost unglued marker of a line, with the text that follows it. -/
def findMarker (line : List Char) : Option (Marker × List Char) :=
  let finds := Marker.all.map fun marker => (marker.find line).map (marker, ·)
  (finds.foldl earlier none).map fun (marker, found) => (marker, found.rest)

end SuiteRunner.Directive
