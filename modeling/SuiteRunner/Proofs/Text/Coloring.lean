import Mathlib.Data.List.Forall2
import Mathlib.Data.List.TakeWhile

/-!
# Deleting colors

A terminal is told about a color by a sequence of an escape character, a bracket, a number and
the letter `m`. Texts are compared by what is left of them when all of these are deleted. Parts of
a text can be looked at one by one, as none of them ends inside of a sequence.
-/

namespace SuiteRunner.Text

def escape : Char := '\x1b'

/-- What is behind a color sequence whose escape character has been read. -/
def pastColor? : List Char → Option (List Char)
  | '[' :: rest =>
    match rest.dropWhile Char.isDigit with
    | 'm' :: behind => some behind
    | _ => none
  | _ => none

theorem pastColor?_shorter {rest behind : List Char} (found : pastColor? rest = some behind) :
    behind.length < rest.length := by
  unfold pastColor? at found
  split at found
  next rest =>
    have suffix := (List.dropWhile_suffix Char.isDigit (l := rest)).length_le
    split at found
    next same =>
      cases found
      rw [same] at suffix
      simp only [List.length_cons] at suffix ⊢
      omega
    next => cases found
  next => cases found

/-- Delete all color sequences. -/
def uncolor : List Char → List Char
  | [] => []
  | c :: rest =>
    if c = escape then
      match found : pastColor? rest with
      | some behind =>
        have := pastColor?_shorter found
        uncolor behind
      | none => c :: uncolor rest
    else c :: uncolor rest
termination_by cs => cs.length

def uncolored (text : String) : String := String.ofList (uncolor text.toList)

theorem uncolor_append_of_not_mem {cs : List Char} (plain : escape ∉ cs) (rest : List Char) :
    uncolor (cs ++ rest) = cs ++ uncolor rest := by
  induction cs with
  | nil => rfl
  | cons c cs ih =>
    rw [List.mem_cons, not_or] at plain
    rw [List.cons_append, uncolor, if_neg (Ne.symm plain.1), ih plain.2, List.cons_append]

theorem uncolor_sequence {digits : List Char} (numeric : ∀ c ∈ digits, c.isDigit = true)
    (rest : List Char) : uncolor (escape :: '[' :: (digits ++ 'm' :: rest)) = uncolor rest := by
  have found : pastColor? ('[' :: (digits ++ 'm' :: rest)) = some rest := by
    have dropped : (digits ++ 'm' :: rest).dropWhile Char.isDigit = 'm' :: rest := by
      rw [List.dropWhile_append_of_pos numeric]
      rfl
    simp only [pastColor?, dropped]
  rw [uncolor, if_pos rfl]
  split
  next behind found' => exact congrArg uncolor (Option.some.inj (found'.symm.trans found))
  next missing => cases missing.symm.trans found

/-! ### Texts without colors -/

/-- No color sequence can be in the text. -/
def Colorless (text : String) : Prop := escape ∉ text.toList

instance : DecidablePred Colorless := fun text => inferInstanceAs (Decidable (escape ∉ text.toList))

theorem Colorless.append {front back : String} (clean : Colorless front) (clean' : Colorless back) :
    Colorless (front ++ back) := by
  rw [Colorless, String.toList_append, List.mem_append, not_or]
  exact ⟨clean, clean'⟩

theorem Colorless.join {texts : List String} (clean : ∀ text ∈ texts, Colorless text) :
    Colorless (String.join texts) := by
  induction texts with
  | nil => decide
  | cons text texts ih =>
    rw [String.join_cons]
    rw [List.forall_mem_cons] at clean
    exact clean.1.append (ih clean.2)

/-! ### Texts that fade -/

/-- Without its colors the one text is the other, whatever follows it. -/
def Fades (colored plain : String) : Prop :=
  ∀ rest, uncolor (colored.toList ++ rest) = plain.toList ++ uncolor rest

namespace Fades

variable {colored colored' plain plain' : String}

theorem uncolored_eq (fades : Fades colored plain) : uncolored colored = plain := by
  have whole := fades []
  rw [List.append_nil] at whole
  rw [uncolored, whole, uncolor, List.append_nil, String.ofList_toList]

theorem of_colorless {text : String} (clean : Colorless text) : Fades text text :=
  uncolor_append_of_not_mem clean

theorem append (fades : Fades colored plain) (fades' : Fades colored' plain') :
    Fades (colored ++ colored') (plain ++ plain') := by
  intro rest
  rw [String.toList_append, String.toList_append, List.append_assoc, fades, fades',
    List.append_assoc]

/-- A text in one color, after which there is none. -/
theorem painted {code : String} (numeric : ∀ c ∈ code.toList, c.isDigit = true)
    (fades : Fades colored plain) :
    Fades ("\x1b[" ++ code ++ "m" ++ colored ++ "\x1b[0m") plain := by
  intro rest
  have plainly : uncolor (escape :: '[' :: (['0'] ++ 'm' :: rest)) = uncolor rest :=
    uncolor_sequence (List.all_eq_true.mp rfl) rest
  have begun :=
    uncolor_sequence numeric (colored.toList ++ escape :: '[' :: (['0'] ++ 'm' :: rest))
  rw [fades, plainly] at begun
  rw [← begun]
  simp [escape]

theorem join {coloreds plains : List String} (fade : List.Forall₂ Fades coloreds plains) :
    Fades (String.join coloreds) (String.join plains) := by
  induction fade with
  | nil => exact of_colorless (by decide)
  | cons first _ ih =>
    rw [String.join_cons, String.join_cons]
    exact first.append ih

theorem intercalate {separator : String} (free : Colorless separator)
    {coloreds plains : List String} (fade : List.Forall₂ Fades coloreds plains) :
    Fades (separator.intercalate coloreds) (separator.intercalate plains) := by
  induction fade with
  | nil => exact of_colorless (by simp [Colorless])
  | cons first others ih =>
    cases others with
    | nil => simpa using first
    | cons =>
      rw [String.intercalate_cons_cons, String.intercalate_cons_cons]
      exact (first.append (of_colorless free)).append ih

end Fades

end SuiteRunner.Text
