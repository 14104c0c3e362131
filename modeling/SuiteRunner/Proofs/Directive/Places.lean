import SuiteRunner.Proofs.Directive.Markers
import SuiteRunner.Proofs.Text.BytePlaces

/-!
# Markers among the bytes of a line

Where a marker stands is a matter of bytes: its word is there, and the byte in front of it is not
that of a letter, a digit or an underscore. The search for the leading marker looks at characters
and jumps over words that are glued. It finds the smallest position in bytes at which any marker
stands, whatever other characters are in the line, and hands back the bytes behind the marker.
-/

namespace SuiteRunner.Directive

open Text

/-! ### Bytes of words -/

/-- The byte of a letter or a digit of ASCII, or of an underscore. -/
def isWordByte (byte : UInt8) : Bool :=
  (Char.ofUInt8 byte).isAlphanum || Char.ofUInt8 byte == '_'

theorem glues_some (c : Char) : glues (some c) = (c.isAlphanum || c == '_') := by
  -- Both tests ask for the same three ranges, in another order.
  change (((decide ('a' ≤ c) && decide (c ≤ 'z')) || (decide ('A' ≤ c) && decide (c ≤ 'Z'))) ||
      (decide ('0' ≤ c) && decide (c ≤ '9')) || c == '_') =
    ((decide ('A' ≤ c ∧ c ≤ 'Z') || (decide ('a' ≤ c) && decide (c ≤ 'z'))) ||
      (decide ('0' ≤ c) && decide (c ≤ '9')) || c == '_')
  rw [Bool.decide_and, Bool.or_comm (decide ('A' ≤ c) && decide (c ≤ 'Z'))]

theorem ascii_of_glues {c : Char} (glued : glues (some c) = true) : IsAscii c := by
  simp only [glues, isAsciiAlphanumeric, Bool.or_eq_true, beq_iff_eq, Bool.and_eq_true,
    decide_eq_true_eq] at glued
  rcases glued with ((⟨-, most⟩ | ⟨-, most⟩) | ⟨-, most⟩) | rfl
  · exact UInt32.le_trans most (by decide)
  · exact UInt32.le_trans most (by decide)
  · exact UInt32.le_trans most (by decide)
  · decide

theorem isWordByte_eq_glues (byte : UInt8) : isWordByte byte = glues (some (Char.ofUInt8 byte)) :=
  (glues_some _).symm

/-- The last byte in front of a place is that of a word if the last character glues. -/
theorem isWordByte_last (before : List Char) :
    (encode before).getLast?.any isWordByte = glues before.getLast? := by
  rcases List.eq_nil_or_concat before with rfl | ⟨front, c, rfl⟩
  · rfl
  rw [List.concat_eq_append, encode_append, List.getLast?_concat, encode_cons, encode_nil,
    List.append_nil]
  by_cases ascii : IsAscii c
  · rw [utf8EncodeChar_of_ascii ascii, List.getLast?_concat, Option.any_some, isWordByte_eq_glues,
      ofUInt8_of_ascii ascii]
  · -- Neither the character nor a byte of it is one of a word.
    have apart : glues (some c) = false :=
      Bool.eq_false_iff.mpr fun glued => ascii (ascii_of_glues glued)
    rw [apart, Option.any_eq_false]
    intro byte last
    rw [isWordByte_eq_glues, Bool.eq_false_iff]
    intro glued
    have large := lt_of_getLast?_utf8EncodeChar ascii last
    exact absurd (le_of_ascii_ofUInt8 (ascii_of_glues glued)) (UInt8.not_le.mpr large)

/-! ### Places of markers -/

/-- The bytes of a marker word. -/
def Marker.bytes (marker : Marker) : List UInt8 := encode marker.word

/-- The word of a marker is at this place among the bytes of a line, and the byte in front of it,
if there is one, is not that of a word. -/
structure MarkerAt (line : List UInt8) (marker : Marker) (position : Nat) : Prop where
  occurs : marker.bytes <+: line.drop position
  unglued : (line.take position).getLast?.any isWordByte = false

theorem Marker.word_ascii (marker : Marker) : ∀ c ∈ marker.word, IsAscii c := by
  have all : marker.word.all (IsAscii ·) = true := by
    cases marker <;> decide
  simpa only [List.all_eq_true, decide_eq_true_eq] using all

theorem Marker.bytes_gluing (marker : Marker) :
    ∀ byte ∈ marker.bytes.dropLast, isWordByte byte = true := by
  rw [← List.all_eq_true]
  cases marker <;> decide

variable {line before before' rest : List Char} {marker : Marker} {position : Nat}

theorem drop_encode (before rest : List Char) :
    (encode (before ++ rest)).drop (byteLength before) = encode rest := by
  rw [encode_append, ← length_encode, List.drop_left]

theorem take_encode (before rest : List Char) :
    (encode (before ++ rest)).take (byteLength before) = encode before := by
  rw [encode_append, ← length_encode, List.take_left]

/-- A marker is at a place among the bytes of a line if it stands there among the characters. -/
theorem markerAt_iff : MarkerAt (encode line) marker position ↔
    ∃ before rest, StandsBetween marker.word line before rest ∧
      byteLength before = position := by
  constructor
  · rintro ⟨occurs, unglued⟩
    obtain ⟨before, rest, rfl, rfl⟩ := exists_split_of_encode_prefix marker.word_ascii
      marker.cr_not_mem_word.1 occurs
    rw [take_encode, isWordByte_last] at unglued
    exact ⟨before, rest, ⟨rfl, unglued⟩, rfl⟩
  · rintro ⟨before, rest, ⟨rfl, unglued⟩, rfl⟩
    refine ⟨?_, ?_⟩
    · rw [drop_encode, encode_append]
      exact List.prefix_append _ _
    · rwa [take_encode, isWordByte_last]

/-- Of two beginnings of a line, the shorter one has fewer bytes. -/
theorem byteLength_le_iff (begins : before <+: line) (begins' : before' <+: line) :
    byteLength before ≤ byteLength before' ↔ before.length ≤ before'.length := by
  constructor
  -- Two prefixes of one line: the longer one goes on behind the shorter, and each further character
  -- has a byte at least.
  · intro fewer
    by_contra longer
    obtain ⟨more, rfl⟩ :=
      List.prefix_of_prefix_length_le begins' begins (Nat.le_of_not_le longer)
    cases more with
    | nil => simp at longer
    | cons c more =>
      have positive := c.utf8Size_pos
      rw [byteLength_append, byteLength] at fewer
      omega
  · intro shorter
    obtain ⟨more, rfl⟩ := List.prefix_of_prefix_length_le begins begins' shorter
    simp

theorem StandsBetween.begins {word : List Char} (stands : StandsBetween word line before rest) :
    before <+: line :=
  ⟨_, stands.whole.symm⟩

/-- A marker leads a line if it is at the smallest place, and the bytes behind it are left. -/
theorem Marker.leads_iff : marker.Leads line rest ↔
    ∃ position, MarkerAt (encode line) marker position ∧
      (∀ other position', MarkerAt (encode line) other position' → position ≤ position') ∧
      encode rest = (encode line).drop (position + marker.bytes.length) := by
  have behind {before rest' : List Char} (stands : StandsBetween marker.word line before rest') :
      (encode line).drop (byteLength before + marker.bytes.length) = encode rest' := by
    rw [stands.whole, ← List.append_assoc, Marker.bytes, length_encode, ← byteLength_append,
      drop_encode]
  constructor
  -- The places at which markers stand are ordered alike by characters and by bytes, so the first of
  -- them is the same.
  · rintro ⟨before, stands, first⟩
    refine ⟨byteLength before, markerAt_iff.mpr ⟨before, rest, stands, rfl⟩, ?_, ?_⟩
    · intro other position' there
      obtain ⟨before', rest', stands', rfl⟩ := markerAt_iff.mp there
      exact (byteLength_le_iff stands.begins stands'.begins).mpr
        (first other before' rest' stands')
    · exact (behind stands).symm
  · rintro ⟨position, here, first, left⟩
    obtain ⟨before, rest', stands, rfl⟩ := markerAt_iff.mp here
    obtain rfl : rest = rest' := encode_inj (left.trans (behind stands))
    refine ⟨before, stands, fun other before' rest' stands' => ?_⟩
    have there := markerAt_iff.mpr ⟨before', rest', stands', rfl⟩
    exact (byteLength_le_iff stands.begins stands'.begins).mp (first other _ there)

theorem silent_iff :
    Silent line ↔ ∀ marker position, ¬ MarkerAt (encode line) marker position := by
  constructor
  · intro silent marker position here
    obtain ⟨before, rest, stands, -⟩ := markerAt_iff.mp here
    exact silent marker ⟨before, rest, stands⟩
  · rintro nowhere marker ⟨before, rest, stands⟩
    exact nowhere marker _ (markerAt_iff.mpr ⟨before, rest, stands, rfl⟩)

/-- Inside of a word, and where a glued word begins, no marker stands. -/
theorem not_markerAt_inside {bytes : List UInt8} (occurs : marker.bytes <+: bytes.drop position)
    (glued : (bytes.take position).getLast?.any isWordByte = true) {inside : Nat}
    (from_start : position ≤ inside) (within : inside < position + marker.bytes.length)
    (other : Marker) : ¬ MarkerAt bytes other inside := by
  rintro ⟨-, unglued⟩
  obtain ⟨count, rfl⟩ := Nat.exists_eq_add_of_le from_start
  cases count with
  | zero =>
    rw [Nat.add_zero, glued] at unglued
    cases unglued
  | succ count =>
    -- The byte in front of such a place is one of the word, and not its last one.
    obtain ⟨rest, split⟩ := occurs
    have shorter : count < marker.bytes.dropLast.length := by
      rw [List.length_dropLast]
      omega
    have front : bytes[position + count]? = some marker.bytes.dropLast[count] := by
      rw [← List.getElem?_drop, ← split, List.getElem?_append_left (by omega),
        List.getElem_dropLast, List.getElem?_eq_getElem]
    have last : (bytes.take (position + (count + 1))).getLast? =
        some marker.bytes.dropLast[count] := by
      rw [List.getLast?_take, if_neg (by omega)]
      simp [← Nat.add_assoc, front]
    rw [last, Option.any_some, marker.bytes_gluing _ (List.getElem_mem shorter)] at unglued
    cases unglued

/-- The search of a line finds the marker at the smallest place where one stands and hands back
what is behind it, and nothing if and only if no marker stands anywhere. Where the word of a marker
is glued, no marker at all stands from its first byte to its last one. -/
theorem findMarker_finds_smallest_place (line : List Char) :
    (∀ marker rest, findMarker line = some (marker, rest) ↔
      ∃ position, MarkerAt (encode line) marker position ∧
        (∀ other position', MarkerAt (encode line) other position' → position ≤ position') ∧
        encode rest = (encode line).drop (position + marker.bytes.length)) ∧
    (findMarker line = none ↔ ∀ marker position, ¬ MarkerAt (encode line) marker position) ∧
    ∀ (marker : Marker) position, marker.bytes <+: (encode line).drop position →
      ¬ MarkerAt (encode line) marker position →
      ∀ inside, position ≤ inside → inside < position + marker.bytes.length →
        ∀ other, ¬ MarkerAt (encode line) other inside := by
  refine ⟨fun marker rest => ?_, ?_, ?_⟩
  · rw [findMarker_eq_some_iff, Marker.leads_iff]
  · rw [findMarker_eq_none_iff, silent_iff]
  · intro marker position occurs passed inside from_start within other
    have glued : ((encode line).take position).getLast?.any isWordByte = true := by
      rw [← Bool.not_eq_false]
      exact fun unglued => passed ⟨occurs, unglued⟩
    exact not_markerAt_inside occurs glued from_start within other

/-- A glued word, and a marker behind a character of two bytes. -/
def gluedThenStop : List Char := "xRUN: é END.".toList

theorem gluedThenStop_stops :
    findMarker gluedThenStop = some (.stop, []) ∧
    MarkerAt (encode gluedThenStop) .stop 9 ∧
    (∀ other position, MarkerAt (encode gluedThenStop) other position → 9 ≤ position) ∧
    Marker.run.bytes <+: (encode gluedThenStop).drop 1 ∧
    ¬ MarkerAt (encode gluedThenStop) .run 1 ∧ ¬ MarkerAt (encode gluedThenStop) .stop 4 := by
  obtain ⟨finds, -, passes⟩ := findMarker_finds_smallest_place gluedThenStop
  have found : findMarker gluedThenStop = some (.stop, []) := by decide +kernel
  have here : MarkerAt (encode gluedThenStop) .stop 9 := ⟨by decide +kernel, by decide +kernel⟩
  have occurs : Marker.run.bytes <+: (encode gluedThenStop).drop 1 := by decide +kernel
  have glued : ¬ MarkerAt (encode gluedThenStop) .run 1 := fun there =>
    absurd there.unglued (by decide +kernel)
  obtain ⟨position, -, first, left⟩ := (finds .stop []).mp found
  -- Nothing is left behind the word, so it begins four bytes before the end.
  have size : (encode gluedThenStop).length = 13 := by decide +kernel
  have whole : 13 ≤ position + 4 := size ▸ List.drop_eq_nil_iff.mp left.symm
  refine ⟨found, here, fun other position' there => ?_, occurs, glued,
    passes .run 1 occurs glued 4 (by decide) (by decide +kernel) .stop⟩
  have before := first other position' there
  omega

end SuiteRunner.Directive
