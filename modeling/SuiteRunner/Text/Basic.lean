/-!
# Text as a list of characters

Every reader of this library works on the characters of its input and hands back
what it left unread, so the pieces it needs are stated once here: blanks in the
sense of the Unicode property `White_Space`, cutting a text at a separator, cutting
it into lines, and removing a known beginning. Positions are counted in bytes of
the UTF-8 form, since that is how columns and offsets are reported.
-/

namespace SuiteRunner.Text

/-! ### Blanks -/

/-- The characters with the Unicode property `White_Space`. -/
def isBlank (c : Char) : Bool :=
  (0x09 ≤ c.val && c.val ≤ 0x0D) || c.val == 0x20 || c.val == 0x85 || c.val == 0xA0 ||
  c.val == 0x1680 || (0x2000 ≤ c.val && c.val ≤ 0x200A) || c.val == 0x2028 ||
  c.val == 0x2029 || c.val == 0x202F || c.val == 0x205F || c.val == 0x3000

def trimStart (cs : List Char) : List Char := cs.dropWhile isBlank

def trimEnd (cs : List Char) : List Char := (trimStart cs.reverse).reverse

def trim (cs : List Char) : List Char := trimEnd (trimStart cs)

/-! ### Cutting -/

/-- The pieces between the separators; there is one piece more than separators. -/
def split (separator : Char) : List Char → List (List Char)
  | [] => [[]]
  | c :: rest =>
    if c = separator then [] :: split separator rest
    else
      match split separator rest with
      | [] => [[c]]
      | piece :: pieces => (c :: piece) :: pieces

/-- A line may end in a carriage return before its line feed. -/
def dropCarriageReturn (line : List Char) : List Char :=
  match line.reverse with
  | '\r' :: rest => rest.reverse
  | _ => line

/-- Drop the piece after the last line feed when nothing stands in it. -/
def dropLastEmpty : List (List Char) → List (List Char)
  | [] => []
  | [last] => if last.isEmpty then [] else [last]
  | piece :: pieces => piece :: dropLastEmpty pieces

/-- A carriage return belongs to the line end only in front of a line feed. -/
def stripLineEnds : List (List Char) → List (List Char)
  | [] => []
  | [last] => [last]
  | piece :: pieces => dropCarriageReturn piece :: stripLineEnds pieces

/-- The lines of a text, without their line ends. -/
def lines (cs : List Char) : List (List Char) :=
  dropLastEmpty (stripLineEnds (split '\n' cs))

/-- What follows `start`, if the text begins with it. -/
def after? : (start : List Char) → List Char → Option (List Char)
  | [], cs => some cs
  | _ :: _, [] => none
  | s :: start, c :: cs => if s = c then after? start cs else none

/-- Whether `piece` occurs somewhere in the text. -/
def occursIn (piece : List Char) : List Char → Bool
  | [] => piece.isEmpty
  | c :: cs => (after? piece (c :: cs)).isSome || occursIn piece cs

/-- Join pieces with a separator between each two. -/
def join (separator : List Char) : List (List Char) → List Char
  | [] => []
  | [piece] => piece
  | piece :: pieces => piece ++ separator ++ join separator pieces

/-! ### Positions -/

/-- The number of bytes in the UTF-8 form. -/
def byteLength : List Char → Nat
  | [] => 0
  | c :: cs => c.utf8Size + byteLength cs

/-! ### Letters -/

def isAsciiAlphanumeric (c : Char) : Bool :=
  ('a' ≤ c && c ≤ 'z') || ('A' ≤ c && c ≤ 'Z') || ('0' ≤ c && c ≤ '9')

/-! ### Small laws -/

@[simp] theorem byteLength_append (a b : List Char) :
    byteLength (a ++ b) = byteLength a + byteLength b := by
  induction a with
  | nil => simp [byteLength]
  | cons c a ih => simp [byteLength, ih, Nat.add_assoc]

@[simp] theorem after?_append (start rest : List Char) :
    after? start (start ++ rest) = some rest := by
  induction start with
  | nil => rfl
  | cons c start ih => simp [after?, ih]

theorem eq_append_of_after? {start cs rest : List Char} (h : after? start cs = some rest) :
    cs = start ++ rest := by
  induction start generalizing cs with
  | nil => simpa [after?] using h
  | cons s start ih =>
    cases cs with
    | nil => simp [after?] at h
    | cons c cs =>
      by_cases same : s = c
      · subst same
        simp only [after?, if_true] at h
        simp [ih h]
      · simp [after?, same] at h

theorem after?_isSome_iff {start cs : List Char} : (after? start cs).isSome ↔ start <+: cs := by
  constructor
  · intro present
    obtain ⟨rest, found⟩ := Option.isSome_iff_exists.mp present
    exact ⟨rest, (eq_append_of_after? found).symm⟩
  · rintro ⟨rest, rfl⟩
    rw [after?_append, Option.isSome_some]

theorem occursIn_iff {piece cs : List Char} : occursIn piece cs = true ↔ piece <:+: cs := by
  induction cs with
  | nil => rw [occursIn, List.isEmpty_iff, List.infix_nil]
  | cons c cs ih => rw [occursIn, Bool.or_eq_true, after?_isSome_iff, ih, List.infix_cons_iff]

theorem split_ne_nil (separator : Char) (cs : List Char) : split separator cs ≠ [] := by
  induction cs with
  | nil => simp [split]
  | cons c cs ih =>
    unfold split
    split
    · simp
    · split <;> simp

end SuiteRunner.Text
