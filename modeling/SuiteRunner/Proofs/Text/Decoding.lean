import SuiteRunner.Proofs.Text.Encoding
import SuiteRunner.Text.Utf8

/-!
# Reading bytes as text

Bytes that encode a text are read as that text, so a packed text is shown as what was packed. What
is no such encoding is not told apart, but it never reaches beyond the next byte of ASCII: every
character of ASCII is read off its own byte and every byte of ASCII as its own character.
-/

namespace SuiteRunner.Text

variable {byte low high : UInt8} {xs ys rest : List UInt8} {count : Nat}

/-! ### Characters that were encoded -/

/-- The bytes behind a leading byte give back the bits that are missing in it. -/
theorem follow_trailing {value : Nat} (bits : Nat)
    (within : ∀ more, count = more + 1 → low.toNat ≤ value / 64 ^ more % 64 + 0x80 ∧
      value / 64 ^ more % 64 + 0x80 ≤ high.toNat) :
    follow low high bits count (trailing count value ++ rest) =
      (Char.ofNat (bits * 64 ^ count + value % 64 ^ count), rest) := by
  induction count generalizing low high bits with
  | zero => simp [follow, trailing, Nat.mod_one]
  | succ count ih =>
    obtain ⟨above, below⟩ := within count rfl
    have small : value / 64 ^ count % 64 < 64 := Nat.mod_lt _ (by decide)
    have here : (UInt8.ofNat (value / 64 ^ count % 64 + 0x80)).toNat =
        value / 64 ^ count % 64 + 0x80 := by
      rw [UInt8.toNat_ofNat']
      omega
    rw [trailing, List.cons_append, follow, if_pos, here, Nat.add_sub_cancel, ih]
    · rw [Nat.mod_pow_succ, Nat.pow_succ, Nat.add_mul, Nat.add_assoc, Nat.mul_assoc,
        Nat.mul_comm 64, Nat.mul_comm (value / 64 ^ count % 64), Nat.add_comm (value % 64 ^ count)]
    -- Any six bits stand between the bounds of a byte that is not the first.
    · intro more _
      have small : value / 64 ^ more % 64 < 64 := Nat.mod_lt _ (by decide)
      change 128 ≤ _ ∧ _ ≤ 191
      omega
    · simp only [Bool.and_eq_true, decide_eq_true_eq, UInt8.le_iff_toNat_le, here]
      exact ⟨above, below⟩

/-- What a leading byte announces fits the bytes that follow it. The bounds leave out surrogates and
numbers that fewer bytes would do for. -/
structure Lead.Announces (lead : Lead) (value : Nat) : Prop where
  following : lead.following = Text.following value
  bits : lead.bits * 64 ^ lead.following + value % 64 ^ lead.following = value
  within : ∀ more, lead.following = more + 1 →
    lead.low.toNat ≤ value / 64 ^ more % 64 + 0x80 ∧
      value / 64 ^ more % 64 + 0x80 ≤ lead.high.toNat

theorem lead?_ofNat {value : Nat} (small : value < 256) :
    lead? (UInt8.ofNat value) =
      if value < 0x80 then some ⟨0, 0x80, 0xBF, value⟩
      else if value < 0xC2 then none
      else if value < 0xE0 then some ⟨1, 0x80, 0xBF, value - 0xC0⟩
      else if value = 0xE0 then some ⟨2, 0xA0, 0xBF, 0⟩
      else if value = 0xED then some ⟨2, 0x80, 0x9F, 0xD⟩
      else if value < 0xF0 then some ⟨2, 0x80, 0xBF, value - 0xE0⟩
      else if value = 0xF0 then some ⟨3, 0x90, 0xBF, 0⟩
      else if value < 0xF4 then some ⟨3, 0x80, 0xBF, value - 0xF0⟩
      else if value = 0xF4 then some ⟨3, 0x80, 0x8F, 4⟩
      else none := by
  have here : (UInt8.ofNat value).toNat = value := by
    rw [UInt8.toNat_ofNat']
    omega
  simp only [lead?, UInt8.lt_iff_toNat_lt, ← UInt8.toNat_inj, here, UInt8.reduceToNat]

theorem Lead.Announces.of_following {lead : Lead} {value more : Nat}
    (width : Text.following value = more + 1) (following : lead.following = more + 1)
    (bits : lead.bits * 64 ^ lead.following + value % 64 ^ lead.following = value)
    (within : lead.low.toNat ≤ value / 64 ^ more % 64 + 0x80 ∧
      value / 64 ^ more % 64 + 0x80 ≤ lead.high.toNat) : lead.Announces value where
  following := following.trans width.symm
  bits := bits
  within := by
    intro other only
    obtain rfl : other = more := Nat.succ.inj (only.symm.trans following)
    exact within

theorem lead?_leading (c : Char) :
    ∃ lead, lead? (UInt8.ofNat (leading c.toNat)) = some lead ∧ lead.Announces c.toNat := by
  have bound : c.toNat < 0x110000 := toNat_val_lt c
  have surrogate : c.toNat < 0xD800 ∨ 0xDFFF < c.toNat := c.valid.imp_right And.left
  rw [lead?_ofNat (leading_lt _)]
  generalize c.toNat = value at bound surrogate ⊢
  -- By the number of bytes, and among three or four of them by the bounds of the second one.
  by_cases one : value ≤ 0x7f
  · rw [leading, if_pos one, if_pos (Nat.lt_succ_of_le one)]
    refine ⟨_, rfl, ?_, ?_, nofun⟩
    · rw [following, if_pos one]
    · rw [Nat.pow_zero, Nat.mul_one, Nat.mod_one, Nat.add_zero]
  by_cases two : value ≤ 0x7ff
  · have width : following value = 1 := by rw [following, if_neg one, if_pos two]
    have lead : leading value = value / 64 + 0xc0 := by
      rw [leading, if_neg one, if_pos two]
      omega
    rw [lead, if_neg (by omega), if_neg (by omega), if_pos (by omega)]
    exact ⟨_, rfl, .of_following width rfl (by dsimp only; omega)
      (by simp only [UInt8.reduceToNat]; omega)⟩
  by_cases three : value ≤ 0xffff
  · have width : following value = 2 := by rw [following, if_neg one, if_neg two, if_pos three]
    have lead : leading value = value / 4096 + 0xe0 := by
      rw [leading, if_neg one, if_neg two, if_pos three]
      omega
    rw [lead, if_neg (by omega), if_neg (by omega), if_neg (by omega)]
    by_cases first : value / 4096 + 0xe0 = 0xE0
    · rw [if_pos first]
      exact ⟨_, rfl, .of_following width rfl (by simp only [Nat.reducePow, Nat.zero_mul]; omega)
        (by simp only [UInt8.reduceToNat]; omega)⟩
    by_cases around : value / 4096 + 0xe0 = 0xED
    · rw [if_neg first, if_pos around]
      exact ⟨_, rfl, .of_following width rfl (by dsimp only; omega)
        (by simp only [UInt8.reduceToNat]; omega)⟩
    · rw [if_neg first, if_neg around, if_pos (by omega)]
      exact ⟨_, rfl, .of_following width rfl (by dsimp only; omega)
        (by simp only [UInt8.reduceToNat]; omega)⟩
  · have width : following value = 3 := by rw [following, if_neg one, if_neg two, if_neg three]
    have lead : leading value = value / 262144 + 0xf0 := by
      rw [leading, if_neg one, if_neg two, if_neg three]
      omega
    rw [lead, if_neg (by omega), if_neg (by omega), if_neg (by omega), if_neg (by omega),
      if_neg (by omega), if_neg (by omega)]
    by_cases first : value / 262144 + 0xf0 = 0xF0
    · rw [if_pos first]
      exact ⟨_, rfl, .of_following width rfl (by simp only [Nat.reducePow, Nat.zero_mul]; omega)
        (by simp only [UInt8.reduceToNat]; omega)⟩
    by_cases inner : value / 262144 + 0xf0 < 0xF4
    · rw [if_neg first, if_pos inner]
      exact ⟨_, rfl, .of_following width rfl (by dsimp only; omega)
        (by simp only [UInt8.reduceToNat]; omega)⟩
    · rw [if_neg first, if_neg inner, if_pos (by omega)]
      exact ⟨_, rfl, .of_following width rfl (by dsimp only; omega)
        (by simp only [UInt8.reduceToNat]; omega)⟩

/-- A character is read off the bytes that encode it. -/
theorem nextChar_encoded {c : Char} (encoded : String.utf8EncodeChar c = byte :: xs) :
    nextChar byte (xs ++ rest) = (c, rest) := by
  rw [utf8EncodeChar_eq] at encoded
  obtain ⟨rfl, rfl⟩ := List.cons.inj encoded
  obtain ⟨lead, found, announced⟩ := lead?_leading c
  have width := announced.following
  rw [nextChar, show c.val.toNat = c.toNat from rfl, found]
  dsimp only
  rw [← width, follow_trailing _ announced.within, announced.bits, Char.ofNat_toNat]

theorem decodeOnto_encode (text : String) (cs : List Char) :
    decodeOnto text (encode cs) = text ++ String.ofList cs := by
  induction cs generalizing text with
  | nil => simp [decodeOnto]
  | cons c cs ih =>
    have encoded := utf8EncodeChar_eq c
    rw [encode_cons, encoded, List.cons_append, decodeOnto, nextChar_encoded encoded, ih]
    simp [← String.toList_inj]

theorem decodeOnto_bytes (text : String) : decodeOnto "" (bytes text) = text := by
  rw [bytes_eq_encode, decodeOnto_encode, String.ofList_toList, String.empty_append]

/-- Bytes that are UTF-8 are no special case. -/
theorem decodeLossy_eq (bytes : ByteArray) :
    decodeLossy bytes = decodeOnto "" bytes.data.toList := by
  unfold decodeLossy
  split
  next text valid =>
    unfold String.fromUTF8? at valid
    split at valid
    next =>
      cases valid
      exact (decodeOnto_bytes _).symm
    next => cases valid
  next => rfl

/-! ### Packed texts -/

theorem toNat_ofNat_byte (byte : UInt8) : (Char.ofNat byte.toNat).toNat = byte.toNat := by
  have small : byte.toNat < 0xD800 := Nat.lt_trans byte.toNat_lt (by decide)
  rw [Char.ofNat, dif_pos (Or.inl small)]
  rfl

theorem bytesOf_ofNat (byte : UInt8) : bytesOf (Char.ofNat byte.toNat) = [byte] := by
  rw [bytesOf, toNat_ofNat_byte, if_pos byte.toNat_lt, UInt8.ofNat_toNat]

@[simp] theorem toBytes_ofBytes (bytes : ByteArray) : toBytes (ofBytes bytes) = bytes := by
  simp [toBytes, ofBytes, List.flatMap_map, bytesOf_ofNat]

/-- What was packed is shown as it was. -/
@[simp] theorem shown_pack (text : String) : shown (pack text) = text := by
  rw [shown, pack, toBytes_ofBytes, decodeLossy_eq]
  exact decodeOnto_bytes text

theorem pack_inj {text other : String} : pack text = pack other ↔ text = other := by
  refine ⟨fun same => ?_, congrArg pack⟩
  rw [← shown_pack text, same, shown_pack]

/-! ### Bytes of ASCII -/

theorem nextChar_of_ascii (ascii : byte < 0x80) :
    nextChar byte xs = (Char.ofNat byte.toNat, xs) := by
  rw [nextChar, lead?, if_pos ascii]
  rfl

/-- Nothing but bytes from 128 on belongs to a character that has begun. -/
theorem follow_append (large : 0x80 ≤ low) (ascii : byte < 0x80) (bits count : Nat) :
    follow low high bits count (xs ++ byte :: ys) =
      ((follow low high bits count xs).1, (follow low high bits count xs).2 ++ byte :: ys) := by
  induction count generalizing low high bits xs with
  | zero => rfl
  | succ count ih =>
    cases xs with
    | nil =>
      have outside : ¬ (low ≤ byte && byte ≤ high) = true := by
        rw [Bool.and_eq_true, decide_eq_true_eq]
        exact fun within => UInt8.not_le.mpr (UInt8.lt_of_lt_of_le ascii large) within.1
      rw [List.nil_append]
      simp only [follow]
      rw [if_neg outside, List.nil_append]
    | cons x xs =>
      rw [List.cons_append, follow, follow]
      split
      next => exact ih (UInt8.le_refl _) _
      next => rfl

/-- No byte that follows is one of ASCII, and a byte that is not ASCII announces no character that
is, since its own bits or those of the byte behind it count for too much. -/
theorem lead?_wide : ∀ value < 256, ∀ lead ∈ lead? (UInt8.ofNat value), 0x80 ≤ lead.low ∧
    (128 ≤ value → 128 ≤ lead.bits * 64 ^ lead.following ∨
      ∃ more < 3, lead.following = more + 1 ∧ 128 ≤ (lead.low.toNat - 128) * 64 ^ more) := by
  decide +kernel

theorem lead?_bounds {lead : Lead} (found : lead? byte = some lead) : 0x80 ≤ lead.low ∧
    (0x80 ≤ byte → 128 ≤ lead.bits * 64 ^ lead.following ∨
      ∃ more, lead.following = more + 1 ∧ 128 ≤ (lead.low.toNat - 128) * 64 ^ more) := by
  obtain ⟨above, wide⟩ := lead?_wide byte.toNat byte.toNat_lt lead (by rwa [UInt8.ofNat_toNat])
  refine ⟨above, fun large => (wide large).imp_right ?_⟩
  rintro ⟨more, -, count, large⟩
  exact ⟨more, count, large⟩

theorem nextChar_append {start : UInt8} (ascii : byte < 0x80) :
    nextChar start (xs ++ byte :: ys) =
      ((nextChar start xs).1, (nextChar start xs).2 ++ byte :: ys) := by
  unfold nextChar
  split
  next => rfl
  next lead found => exact follow_append (lead?_bounds found).1 ascii _ _

/-- A byte of ASCII parts what is read. -/
theorem decodeOnto_append (text : String) (ascii : byte < 0x80) :
    decodeOnto text (xs ++ byte :: ys) =
      decodeOnto ((decodeOnto text xs).push (Char.ofNat byte.toNat)) ys := by
  fun_induction decodeOnto text xs with
  | case1 => rw [List.nil_append, decodeOnto, nextChar_of_ascii ascii]
  | case2 text start xs _ ih => rw [List.cons_append, decodeOnto, nextChar_append ascii, ih]

theorem append_decodeOnto (front text : String) (xs : List UInt8) :
    front ++ decodeOnto text xs = decodeOnto (front ++ text) xs := by
  fun_induction decodeOnto text xs with
  | case1 => rw [decodeOnto]
  | case2 text start xs _ ih =>
    have push : front ++ text.push (nextChar start xs).1 =
        (front ++ text).push (nextChar start xs).1 := by
      simp [← String.toList_inj]
    rw [ih, push, ← decodeOnto]

theorem toList_decodeOnto_cons (start : UInt8) (xs : List UInt8) :
    (decodeOnto "" (start :: xs)).toList =
      (nextChar start xs).1 :: (decodeOnto "" (nextChar start xs).2).toList := by
  rw [decodeOnto, ← String.append_empty (s := "".push _), ← append_decodeOnto]
  simp

/-! ### Characters of ASCII -/

theorem toNat_ofNat_or (value : Nat) :
    Char.ofNat value = '\x00' ∨ (Char.ofNat value).toNat = value := by
  by_cases valid : value.isValidChar
  · right
    rw [Char.ofNat, dif_pos valid]
    rfl
  · left
    rw [Char.ofNat, dif_neg valid]
    rfl

/-- Several bytes are for no character of ASCII, or for one that there is not. -/
theorem follow_wide {bits : Nat}
    (large : 128 ≤ bits * 64 ^ count ∨
      ∃ more, count = more + 1 ∧ 128 ≤ (low.toNat - 128) * 64 ^ more) :
    (follow low high bits count xs).1 = '\x00' ∨ ¬ IsAscii (follow low high bits count xs).1 := by
  have replaced : ¬ IsAscii replacementCharacter := by decide
  induction count generalizing low high bits xs with
  | zero =>
    obtain large | ⟨_, none, -⟩ := large
    · rw [Nat.pow_zero, Nat.mul_one] at large
      refine (toNat_ofNat_or bits).imp_right fun same ascii => ?_
      have small : (Char.ofNat bits).toNat ≤ 127 := ascii
      omega
    · cases none
  | succ count ih =>
    cases xs with
    | nil => exact .inr replaced
    | cons x xs =>
      rw [follow]
      split
      next within =>
        -- The bits so far grow by those of this byte, which are at least as many as the bound asks.
        have above : low.toNat ≤ x.toNat := by
          simp only [Bool.and_eq_true, decide_eq_true_eq, UInt8.le_iff_toNat_le] at within
          exact within.1
        refine ih (.inl ?_)
        rcases large with large | ⟨more, same, large⟩
        · refine Nat.le_trans large ?_
          rw [Nat.pow_succ, Nat.mul_comm (64 ^ count), ← Nat.mul_assoc]
          exact Nat.mul_le_mul_right _ (Nat.le_add_right _ _)
        · cases same
          refine Nat.le_trans large (Nat.mul_le_mul_right _ ?_)
          omega
      next => exact .inr replaced

theorem nextChar_wide (large : 0x80 ≤ byte) :
    (nextChar byte xs).1 = '\x00' ∨ ¬ IsAscii (nextChar byte xs).1 := by
  unfold nextChar
  split
  next => exact .inr (by decide : ¬ IsAscii replacementCharacter)
  next lead found => exact follow_wide ((lead?_bounds found).2 large)

/-- A character of ASCII is read off its own byte. -/
theorem of_nextChar_ascii {c : Char} (spoken : c ≠ '\x00') (ascii : IsAscii c)
    (read : (nextChar byte xs).1 = c) : byte < 0x80 ∧ Char.ofNat byte.toNat = c ∧
      (nextChar byte xs).2 = xs := by
  by_cases small : byte < 0x80
  · rw [nextChar_of_ascii small] at read ⊢
    exact ⟨small, read, rfl⟩
  · have wide : (nextChar byte xs).1 = '\x00' ∨ ¬ IsAscii (nextChar byte xs).1 :=
      nextChar_wide (UInt8.not_lt.mp small)
    rw [read] at wide
    exact absurd ascii (wide.resolve_left spoken)

theorem mem_of_mem_decodeOnto {c : Char} {text : String} (spoken : c ≠ '\x00') (ascii : IsAscii c)
    (member : c ∈ (decodeOnto text xs).toList) :
    c ∈ text.toList ∨ ∃ byte ∈ xs, byte < 0x80 ∧ Char.ofNat byte.toNat = c := by
  fun_induction decodeOnto text xs with
  | case1 => exact .inl member
  | case2 text start xs _ ih =>
    rcases ih member with pushed | ⟨byte, later, same⟩
    · rw [String.toList_push] at pushed
      rcases List.mem_append.mp pushed with before | here
      · exact .inl before
      · obtain ⟨small, same, -⟩ := of_nextChar_ascii spoken ascii (List.mem_singleton.mp here).symm
        exact .inr ⟨start, List.mem_cons_self, small, same⟩
    · have later := (nextChar_suffix start xs).subset later
      exact .inr ⟨byte, List.mem_cons_of_mem _ later, same⟩

/-- Bytes that are read as a word of ASCII are those of the word. -/
theorem eq_map_of_decodeOnto {word : List Char} (spoken : ∀ c ∈ word, c ≠ '\x00' ∧ IsAscii c)
    (read : (decodeOnto "" xs).toList = word) :
    (∀ byte ∈ xs, byte < 0x80) ∧ xs.map (Char.ofNat ·.toNat) = word := by
  induction word generalizing xs with
  | nil =>
    cases xs with
    | nil => exact ⟨List.forall_mem_nil _, rfl⟩
    | cons start xs => rw [toList_decodeOnto_cons] at read; cases read
  | cons c word ih =>
    cases xs with
    | nil => rw [decodeOnto] at read; cases read
    | cons start xs =>
      obtain ⟨first, others⟩ := List.forall_mem_cons.mp spoken
      rw [toList_decodeOnto_cons] at read
      obtain ⟨here, further⟩ := List.cons.inj read
      obtain ⟨small, same, left⟩ := of_nextChar_ascii first.1 first.2 here
      rw [left] at further
      obtain ⟨smalls, sames⟩ := ih others further
      exact ⟨List.forall_mem_cons.mpr ⟨small, smalls⟩, by rw [List.map_cons, same, sames]⟩

/-! ### What packed texts are shown as -/

theorem shown_eq (packed : String) : shown packed = decodeOnto "" (packed.toList.flatMap bytesOf) :=
  decodeLossy_eq _

theorem bytesOf_of_ascii {c : Char} (ascii : IsAscii c) : bytesOf c = [UInt8.ofNat c.toNat] :=
  if_pos (Nat.lt_of_le_of_lt ascii (by decide))

theorem eq_of_mem_utf8EncodeChar {c : Char} (small : byte < 0x80)
    (member : byte ∈ String.utf8EncodeChar c) : c = Char.ofNat byte.toNat := by
  by_cases ascii : IsAscii c
  · rw [utf8EncodeChar_of_ascii ascii] at member
    obtain rfl := List.mem_singleton.mp member
    have within : c.val.toNat < 2 ^ 8 := Nat.lt_of_le_of_lt ascii (by decide)
    rw [UInt32.toNat_toUInt8, Nat.mod_eq_of_lt within]
    exact (Char.ofNat_toNat c).symm
  · have large : 127 < byte.toNat := lt_of_mem_utf8EncodeChar ascii member
    exact absurd (UInt8.lt_iff_toNat_lt.mp small) (Nat.not_lt_of_ge large)

theorem eq_of_mem_bytesOf {c : Char} (small : byte < 0x80) (member : byte ∈ bytesOf c) :
    c = Char.ofNat byte.toNat := by
  unfold bytesOf at member
  split at member
  next within =>
    obtain rfl := List.mem_singleton.mp member
    rw [UInt8.toNat_ofNat', Nat.mod_eq_of_lt within, Char.ofNat_toNat]
  next => exact eq_of_mem_utf8EncodeChar small member

/-- A slash that is seen in a text is one. -/
theorem slash_mem_of_shown {packed : String} (member : '/' ∈ (shown packed).toList) :
    '/' ∈ packed.toList := by
  rw [shown_eq] at member
  obtain none | ⟨byte, among, small, same⟩ := mem_of_mem_decodeOnto (by decide) (by decide) member
  · simp at none
  · obtain ⟨c, listed, inside⟩ := List.mem_flatMap.mp among
    rwa [← same, ← eq_of_mem_bytesOf small inside]

/-- What is read on both sides of a slash is not mixed up. -/
theorem shown_append_slash (packed rest : String) :
    shown (packed ++ "/" ++ rest) = shown packed ++ "/" ++ shown rest := by
  have slash : ("/" : String).toList.flatMap bytesOf = [0x2f] := by decide
  rw [shown_eq, String.toList_append, String.toList_append, List.flatMap_append,
    List.flatMap_append, slash, List.append_assoc, List.singleton_append,
    decodeOnto_append "" (by decide), ← shown_eq, shown_eq rest, append_decodeOnto]
  congr 1
  simp [← String.toList_inj]

theorem flatMap_bytesOf_of_ascii {cs : List Char} (ascii : ∀ c ∈ cs, IsAscii c) :
    cs.flatMap bytesOf = encode cs := by
  induction cs with
  | nil => rfl
  | cons c cs ih =>
    obtain ⟨first, others⟩ := List.forall_mem_cons.mp ascii
    rw [List.flatMap_cons, ih others, bytesOf_of_ascii first, encode_cons,
      utf8EncodeChar_of_ascii first]
    rfl

theorem ascii_of_bytesOf {c : Char} (small : ∀ byte ∈ bytesOf c, byte < 0x80) : IsAscii c := by
  by_cases within : c.toNat < 256
  · rw [bytesOf, if_pos within, List.forall_mem_singleton, UInt8.lt_iff_toNat_lt,
      UInt8.toNat_ofNat', Nat.mod_eq_of_lt within] at small
    exact Nat.le_of_lt_succ small
  · rw [bytesOf, if_neg within, utf8EncodeChar_eq] at small
    have first : _ < _ := small _ List.mem_cons_self
    have same := eq_of_mem_utf8EncodeChar first (utf8EncodeChar_eq c ▸ List.mem_cons_self)
    rw [same, toNat_ofNat_byte] at within
    exact absurd (UInt8.toNat_lt _) within

/-- Characters that stand for bytes of ASCII only are those bytes. -/
theorem map_flatMap_bytesOf {cs : List Char} (small : ∀ byte ∈ cs.flatMap bytesOf, byte < 0x80) :
    (cs.flatMap bytesOf).map (Char.ofNat ·.toNat) = cs := by
  induction cs with
  | nil => rfl
  | cons c cs ih =>
    rw [List.flatMap_cons, List.forall_mem_append] at small
    have single := bytesOf_of_ascii (ascii_of_bytesOf small.1)
    have member : UInt8.ofNat c.toNat ∈ bytesOf c := single ▸ List.mem_singleton_self _
    have same := eq_of_mem_bytesOf (small.1 _ member) member
    rw [List.flatMap_cons, single, List.map_append, ih small.2, List.map_singleton, ← same,
      List.singleton_append]

/-- A word of ASCII is seen where it stands, and nowhere else. -/
theorem shown_eq_iff {packed word : String} (spoken : ∀ c ∈ word.toList, c ≠ '\x00' ∧ IsAscii c) :
    shown packed = word ↔ packed = word := by
  constructor
  · intro same
    rw [shown_eq] at same
    obtain ⟨small, read⟩ := eq_map_of_decodeOnto spoken (congrArg String.toList same)
    rw [map_flatMap_bytesOf small] at read
    exact String.toList_inj.mp read
  · rintro rfl
    rw [shown_eq, flatMap_bytesOf_of_ascii fun c member => (spoken c member).2, decodeOnto_encode,
      String.ofList_toList, String.empty_append]

/-! ### What texts are packed into -/

theorem toList_pack (text : String) :
    (pack text).toList = (encode text.toList).map (Char.ofNat ·.toNat) := by
  rw [← bytes_eq_encode]
  exact String.toList_ofList

/-- Only a slash is packed into one. -/
theorem slash_mem_of_pack {text : String} (member : '/' ∈ (pack text).toList) :
    '/' ∈ text.toList := by
  rw [toList_pack] at member
  obtain ⟨byte, among, same⟩ := List.mem_map.mp member
  obtain ⟨c, listed, inside⟩ := List.mem_flatMap.mp among
  have value : byte.toNat = 47 := by
    rw [← toNat_ofNat_byte, same]
    rfl
  have small : byte < 0x80 := by
    rw [UInt8.lt_iff_toNat_lt, value]
    decide
  rwa [← same, ← eq_of_mem_utf8EncodeChar small inside]

theorem pack_append_slash (text rest : String) :
    pack (text ++ "/" ++ rest) = pack text ++ "/" ++ pack rest := by
  apply String.toList_inj.mp
  simp only [toList_pack, String.toList_append, encode_append, List.map_append]
  rfl

end SuiteRunner.Text
