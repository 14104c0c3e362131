/-!
# Bytes as text

Bytes are read as UTF-8. Where they are not, each longest beginning of a character that
goes no further, or else each single byte, becomes one replacement character.

Names of files and what a shell works with are bytes that are never read. They are kept
as *packed* texts, with one byte in each character, so nothing is lost of them and they
are compared byte by byte. A text in ASCII is its own packed form.
-/

namespace SuiteRunner.Text

def replacementCharacter : Char := '\uFFFD'

/-- What a leading byte announces: how many bytes follow, the bounds of the first of them,
and the bits that it contributes itself. -/
structure Lead where
  following : Nat
  low : UInt8
  high : UInt8
  bits : Nat

def lead? (byte : UInt8) : Option Lead :=
  if byte < 0x80 then some ⟨0, 0x80, 0xBF, byte.toNat⟩
  else if byte < 0xC2 then none
  else if byte < 0xE0 then some ⟨1, 0x80, 0xBF, byte.toNat - 0xC0⟩
  else if byte = 0xE0 then some ⟨2, 0xA0, 0xBF, 0⟩
  else if byte = 0xED then some ⟨2, 0x80, 0x9F, 0xD⟩
  else if byte < 0xF0 then some ⟨2, 0x80, 0xBF, byte.toNat - 0xE0⟩
  else if byte = 0xF0 then some ⟨3, 0x90, 0xBF, 0⟩
  else if byte < 0xF4 then some ⟨3, 0x80, 0xBF, byte.toNat - 0xF0⟩
  else if byte = 0xF4 then some ⟨3, 0x80, 0x8F, 4⟩
  else none

/-- Read the bytes that follow a leading byte; only the first of them has bounds of its own. -/
def follow (low high : UInt8) (value : Nat) :
    (count : Nat) → List UInt8 → Char × List UInt8
  | 0, bytes => (Char.ofNat value, bytes)
  | _ + 1, [] => (replacementCharacter, [])
  | count + 1, byte :: bytes =>
    if low ≤ byte && byte ≤ high then
      follow 0x80 0xBF (value * 64 + (byte.toNat - 0x80)) count bytes
    else (replacementCharacter, byte :: bytes)

theorem follow_suffix (low high : UInt8) (value count : Nat) (bytes : List UInt8) :
    (follow low high value count bytes).2 <:+ bytes := by
  induction count generalizing low high value bytes with
  | zero => exact List.suffix_refl _
  | succ count ih =>
    cases bytes with
    | nil => exact List.suffix_refl _
    | cons byte bytes =>
      unfold follow
      split
      · exact (ih ..).trans (List.suffix_cons ..)
      · exact List.suffix_refl _

/-- The first character, and the bytes behind it. -/
def nextChar (byte : UInt8) (bytes : List UInt8) : Char × List UInt8 :=
  match lead? byte with
  | none => (replacementCharacter, bytes)
  | some lead => follow lead.low lead.high lead.bits lead.following bytes

theorem nextChar_suffix (byte : UInt8) (bytes : List UInt8) :
    (nextChar byte bytes).2 <:+ bytes := by
  unfold nextChar
  split
  · exact List.suffix_refl _
  · exact follow_suffix ..

/-- Put the characters of the bytes behind those of `text`. -/
def decodeOnto (text : String) (bytes : List UInt8) : String :=
  match bytes with
  | [] => text
  | byte :: bytes =>
    have := (nextChar_suffix byte bytes).length_le
    decodeOnto (text.push (nextChar byte bytes).1) (nextChar byte bytes).2
termination_by bytes.length
decreasing_by simp only [List.length_cons]; omega

/-- The text of bytes that may not be UTF-8. -/
def decodeLossy (bytes : ByteArray) : String :=
  match String.fromUTF8? bytes with
  | some text => text
  | none => decodeOnto "" bytes.data.toList

/-- The text of bytes that are UTF-8. -/
def decode? (bytes : ByteArray) : Option String := String.fromUTF8? bytes

/-! ### Packed texts -/

/-- Bytes as a packed text. -/
def ofBytes (bytes : ByteArray) : String :=
  String.ofList (bytes.data.toList.map fun byte => Char.ofNat byte.toNat)

/-- The byte that a character of a packed text stands for. No packed text has characters that are
no bytes; they stand for the bytes that encode them. -/
def bytesOf (c : Char) : List UInt8 :=
  if c.toNat < 256 then [UInt8.ofNat c.toNat] else String.utf8EncodeChar c

/-- The bytes of a packed text. -/
def toBytes (packed : String) : ByteArray := ⟨(packed.toList.flatMap bytesOf).toArray⟩

/-- The packed form of a text that is read as UTF-8. -/
def pack (text : String) : String := ofBytes text.toUTF8

/-- The text that a packed text is shown as. -/
def shown (packed : String) : String := decodeLossy (toBytes packed)

end SuiteRunner.Text
