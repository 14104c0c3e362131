import SuiteRunner.Proofs.Text.Encoding

/-!
# Places among the bytes of a text

Texts are searched by their characters, and places in them are counted in bytes. A character of
ASCII is encoded by the byte of its own number, and no byte of any other character is below 128.
So wherever the bytes of an ASCII word occur among those of a text, the word stands in the text,
and a place where it begins or ends is one between two characters.
-/

namespace SuiteRunner.Text

variable {word cs : List Char} {byte : UInt8} {position : Nat}

theorem not_encode_prefix_cons {bytes : List UInt8} (ascii : ∀ c ∈ word, IsAscii c)
    (spelled : word ≠ []) (large : 127 < byte) : ¬ encode word <+: byte :: bytes := by
  intro begins
  obtain ⟨w, word, rfl⟩ := List.exists_cons_of_ne_nil spelled
  have first := ascii w List.mem_cons_self
  rw [encode_cons, utf8EncodeChar_of_ascii first, List.singleton_append,
    List.cons_prefix_cons] at begins
  rw [← begins.1] at large
  exact absurd (toUInt8_le_of_ascii first) (UInt8.not_le.mpr large)

/-- A text whose bytes begin with those of a word begins with the word. -/
theorem prefix_of_encode_prefix (ascii : ∀ c ∈ word, IsAscii c)
    (begins : encode word <+: encode cs) : word <+: cs := by
  induction word generalizing cs with
  | nil => exact List.nil_prefix
  | cons w word ih =>
    have first := ascii w List.mem_cons_self
    cases cs with
    | nil =>
      rw [encode_cons, utf8EncodeChar_of_ascii first] at begins
      cases List.prefix_nil.mp begins
    | cons c cs =>
      -- A character of ASCII is its own byte; any other one starts with a byte that no character of
      -- the word has.
      by_cases small : IsAscii c
      · rw [encode_cons, encode_cons, utf8EncodeChar_of_ascii first,
          utf8EncodeChar_of_ascii small, List.singleton_append, List.singleton_append,
          List.cons_prefix_cons] at begins
        have same : w = c := by
          rw [← ofUInt8_of_ascii first, begins.1, ofUInt8_of_ascii small]
        rw [same, List.cons_prefix_cons]
        exact ⟨rfl, ih (fun c member => ascii c (List.mem_cons_of_mem _ member)) begins.2⟩
      · have large : ∀ byte ∈ String.utf8EncodeChar c, 127 < byte := fun byte =>
          lt_of_mem_utf8EncodeChar small
        rw [encode_cons c, utf8EncodeChar_eq] at begins
        rw [utf8EncodeChar_eq] at large
        exact absurd begins (not_encode_prefix_cons ascii (List.cons_ne_nil _ _)
          (large _ List.mem_cons_self))

/-- Where the bytes of a word occur, the word stands in the text. -/
theorem exists_split_of_encode_prefix (ascii : ∀ c ∈ word, IsAscii c) (spelled : word ≠ [])
    (occurs : encode word <+: (encode cs).drop position) :
    ∃ before rest, cs = before ++ (word ++ rest) ∧ byteLength before = position := by
  induction cs generalizing position with
  | nil =>
    rw [encode_nil, List.drop_nil] at occurs
    obtain ⟨w, word, rfl⟩ := List.exists_cons_of_ne_nil spelled
    rw [encode_cons, utf8EncodeChar_eq] at occurs
    cases List.prefix_nil.mp occurs
  | cons c cs ih =>
    by_cases start : position = 0
    · subst start
      obtain ⟨rest, split⟩ := prefix_of_encode_prefix ascii occurs
      exact ⟨[], rest, split.symm, rfl⟩
    have size := String.length_utf8EncodeChar c
    rw [encode_cons, List.drop_append] at occurs
    by_cases inside : position < (String.utf8EncodeChar c).length
    · -- Inside of a character there are large bytes only.
      have wide : ¬ IsAscii c := fun small => by
        rw [utf8EncodeChar_of_ascii small, List.length_singleton] at inside
        omega
      rw [List.drop_eq_getElem_cons inside] at occurs
      exact absurd occurs (not_encode_prefix_cons ascii spelled
        (lt_of_mem_utf8EncodeChar wide (List.getElem_mem inside)))
    · rw [List.drop_eq_nil_of_le (Nat.le_of_not_lt inside), List.nil_append] at occurs
      obtain ⟨before, rest, rfl, place⟩ := ih occurs
      refine ⟨c :: before, rest, rfl, ?_⟩
      rw [byteLength, place]
      omega

end SuiteRunner.Text
