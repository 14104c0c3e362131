import Mathlib.Algebra.Group.Nat.Defs
import Mathlib.Tactic.SplitIfs
import SuiteRunner.Text.Basic

/-!
# The bytes of a text

A text is encoded character by character, each by a leading byte and the bytes that follow it with
six bits each. A character of ASCII is its own byte, and all bytes of the others are larger.
-/

namespace SuiteRunner.Text

/-! ### Encoded characters -/

/-- How many bytes follow the leading byte of a character. -/
def following (value : Nat) : Nat :=
  if value ≤ 0x7f then 0 else if value ≤ 0x7ff then 1 else if value ≤ 0xffff then 2 else 3

/-- The leading byte of a character. -/
def leading (value : Nat) : Nat :=
  if value ≤ 0x7f then value
  else if value ≤ 0x7ff then value / 64 % 0x20 + 0xc0
  else if value ≤ 0xffff then value / 4096 % 0x10 + 0xe0
  else value / 262144 % 0x08 + 0xf0

/-- The last bytes of a character, six bits each. -/
def trailing : (count : Nat) → (value : Nat) → List UInt8
  | 0, _ => []
  | count + 1, value => UInt8.ofNat (value / 64 ^ count % 64 + 0x80) :: trailing count value

theorem utf8EncodeChar_eq (c : Char) :
    String.utf8EncodeChar c =
      UInt8.ofNat (leading c.val.toNat) :: trailing (following c.val.toNat) c.val.toNat := by
  unfold String.utf8EncodeChar leading following
  dsimp only
  split
  next => rfl
  next =>
    split
    next => simp [trailing]
    next => split <;> simp [trailing]

theorem leading_lt (value : Nat) : leading value < 256 := by
  unfold leading
  split_ifs <;> omega

theorem toNat_val_lt (c : Char) : c.val.toNat < 0x110000 := by
  rcases c.valid with below | ⟨-, below⟩
  · exact Nat.lt_trans below (by decide)
  · exact below

/-! ### Encoded texts -/

/-- The bytes of a text. -/
def bytes (text : String) : List UInt8 := text.toByteArray.data.toList

/-- The bytes of characters. -/
def encode (cs : List Char) : List UInt8 := cs.flatMap String.utf8EncodeChar

@[simp] theorem encode_nil : encode [] = [] := rfl

@[simp] theorem encode_cons (c : Char) (cs : List Char) :
    encode (c :: cs) = String.utf8EncodeChar c ++ encode cs := rfl

@[simp] theorem encode_append (cs ds : List Char) : encode (cs ++ ds) = encode cs ++ encode ds :=
  List.flatMap_append

theorem bytes_eq_encode (text : String) : bytes text = encode text.toList := by
  have encoded : text.toByteArray = text.toList.utf8Encode := by
    rw [← String.toByteArray_ofList, String.ofList_toList]
  rw [bytes, encoded, List.utf8Encode, List.data_toByteArray]
  rfl

theorem length_encode (cs : List Char) : (encode cs).length = byteLength cs := by
  induction cs with
  | nil => rfl
  | cons c cs ih =>
    rw [encode_cons, List.length_append, String.length_utf8EncodeChar, ih, byteLength]

theorem encode_inj {cs ds : List Char} (same : encode cs = encode ds) : cs = ds := by
  have texts : String.ofList cs = String.ofList ds := by
    apply String.toByteArray_inj.mp
    apply ByteArray.ext
    apply Array.toList_inj.mp
    change bytes (String.ofList cs) = bytes (String.ofList ds)
    rw [bytes_eq_encode, bytes_eq_encode, String.toList_ofList, String.toList_ofList, same]
  simpa using congrArg String.toList texts

/-! ### Characters of ASCII -/

def IsAscii (c : Char) : Prop := c.val ≤ 127

instance : DecidablePred IsAscii := fun c => inferInstanceAs (Decidable (c.val ≤ 127))

variable {c : Char} {byte : UInt8}

theorem utf8EncodeChar_of_ascii (ascii : IsAscii c) :
    String.utf8EncodeChar c = [c.val.toUInt8] :=
  String.utf8EncodeChar_eq_singleton (Char.utf8Size_eq_one_iff.mpr ascii)

theorem toUInt8_le_of_ascii (ascii : IsAscii c) : c.val.toUInt8 ≤ 127 := by
  have small : c.val.toNat ≤ 127 := ascii
  rw [UInt8.le_iff_toNat_le, UInt32.toNat_toUInt8]
  exact Nat.le_trans (Nat.mod_le _ _) small

theorem val_ofUInt8 (byte : UInt8) : (Char.ofUInt8 byte).val = byte.toUInt32 := rfl

theorem ofUInt8_of_ascii (ascii : IsAscii c) : Char.ofUInt8 c.val.toUInt8 = c := by
  have small : c.val.toNat ≤ 127 := ascii
  apply Char.ext
  apply UInt32.toNat_inj.mp
  simp only [val_ofUInt8, UInt8.toNat_toUInt32, UInt32.toNat_toUInt8]
  omega

theorem le_of_ascii_ofUInt8 (ascii : IsAscii (Char.ofUInt8 byte)) : byte ≤ 127 := by
  have small : (Char.ofUInt8 byte).val.toNat ≤ 127 := ascii
  rwa [val_ofUInt8, UInt8.toNat_toUInt32] at small

theorem lt_of_mem_trailing {count value : Nat} (member : byte ∈ trailing count value) :
    127 < byte := by
  induction count with
  | zero => cases member
  | succ count ih =>
    rcases List.mem_cons.mp member with rfl | later
    · rw [UInt8.lt_iff_toNat_lt, UInt8.toNat_ofNat']
      change 127 < _
      omega
    · exact ih later

/-- No byte of a character that is not of ASCII is below 128. -/
theorem lt_of_mem_utf8EncodeChar (wide : ¬ IsAscii c)
    (member : byte ∈ String.utf8EncodeChar c) : 127 < byte := by
  have large : 127 < c.val.toNat := Nat.lt_of_not_le wide
  rw [utf8EncodeChar_eq] at member
  rcases List.mem_cons.mp member with rfl | later
  · have lead : 127 < leading c.val.toNat := by
      unfold leading
      split_ifs <;> omega
    have bound := leading_lt c.val.toNat
    rw [UInt8.lt_iff_toNat_lt, UInt8.toNat_ofNat']
    change 127 < _
    omega
  · exact lt_of_mem_trailing later

theorem lt_of_getLast?_utf8EncodeChar (wide : ¬ IsAscii c) {bytes : List UInt8}
    (last : (bytes ++ String.utf8EncodeChar c).getLast? = some byte) : 127 < byte := by
  have spelled : String.utf8EncodeChar c ≠ [] := by
    rw [utf8EncodeChar_eq]
    exact List.cons_ne_nil _ _
  rw [List.getLast?_append, List.getLast?_eq_some_getLast spelled, Option.some_or] at last
  cases last
  exact lt_of_mem_utf8EncodeChar wide (List.getLast_mem spelled)

end SuiteRunner.Text
