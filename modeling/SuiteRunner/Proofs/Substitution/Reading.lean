import SuiteRunner.Proofs.Substitution.Segments

/-!
# Where a reading stands

While a template is read, the reading stands at its beginning, and then behind each of its
segments; it never stands inside one. Only a placeholder at which it stands can be malformed, and
the first one that is ends it. What is wrong with the placeholder is read off the text behind its
opening brace: whether that is closed at all, and what comes before it is.
-/

namespace SuiteRunner.Substitution

/-! ### Places -/

/-- The reading of a text comes to stand where `passed` has been read and `rest` is left. What is
malformed is passed here like all else, so that every place can be spoken of. -/
inductive Reaches (patterns : List String) : (text passed rest : List Char) → Prop where
  | here (text : List Char) : Reaches patterns text [] text
  | behind {segment : Segment} {text passed rest : List Char}
      (stands : Stands patterns segment (segment.text ++ text))
      (reached : Reaches patterns text passed rest) :
      Reaches patterns (segment.text ++ text) (segment.text ++ passed) rest

instance (pattern : String) (text : List Char) : Decidable (Begins pattern text) :=
  decidable_of_iff (pattern ≠ "" ∧ pattern.toList <+: text)
    ⟨fun begins => ⟨begins.1, begins.2⟩, fun begins => ⟨begins.1, begins.2⟩⟩

theorem not_begins_nil (pattern : String) : ¬ Begins pattern [] := fun begins =>
  begins.nonempty (String.toList_eq_nil_iff.mp (List.prefix_nil.mp begins.begins))

section

variable {patterns : List String} {segment : Segment} {text passed rest body : List Char}

theorem Reaches.whole (reached : Reaches patterns text passed rest) : text = passed ++ rest := by
  induction reached with
  | here text => rfl
  | behind stands reached ih => rw [ih, List.append_assoc]

/-- A reading stands before a segment, or it has passed it. -/
theorem reaches_next_iff (stands : Stands patterns segment (segment.text ++ text)) :
    Reaches patterns (segment.text ++ text) passed rest ↔
      passed = [] ∧ rest = segment.text ++ text ∨
        ∃ later, passed = segment.text ++ later ∧ Reaches patterns text later rest := by
  constructor
  · intro reached
    -- The text is generalized, since `cases` has to see it as an index of its own.
    generalize whole : segment.text ++ text = all at reached stands
    cases reached with
    | here => exact .inl ⟨rfl, rfl⟩
    | @behind other text' later _ stands' reached =>
      cases stands.unique stands'
      cases List.append_cancel_left whole
      exact .inr ⟨later, rfl, reached⟩
  · rintro (⟨rfl, rfl⟩ | ⟨later, rfl, reached⟩)
    · exact .here _
    · exact .behind stands reached

/-! ### Malformed placeholders -/

/-- No name of a placeholder holds such a character. -/
def Spoils (c : Char) : Prop := c ∈ ['\x7b', ' ', '\t', '\n']

/-- The placeholder that opens in front of the text is never closed, or what is in it is no name. -/
def Malformed (body : List Char) : Prop :=
  '\x7d' ∉ body ∨
    ∃ name rest, body = name ++ '\x7d' :: rest ∧ '\x7d' ∉ name ∧
      (name = [] ∨ ∃ c ∈ name, Spoils c)

/-- What is wrong with the placeholder that opens in front of a text, and the part of the text that
belongs to it: all up to the first closing brace, or what could be a name if there is none. -/
inductive Faulty : (body part : List Char) → Problem → Prop where
  | unclosed {part rest : List Char} (unclosed : '\x7d' ∉ part ++ rest)
      (plain : ∀ c ∈ part, ¬ Spoils c) (stops : ∀ c ∈ rest.head?, Spoils c) :
      Faulty (part ++ rest) part .unclosed
  | emptyName (rest : List Char) : Faulty ('\x7d' :: rest) ['\x7d'] .emptyName
  | badName {name rest : List Char} (unclosed : '\x7d' ∉ name) (spoiled : ∃ c ∈ name, Spoils c) :
      Faulty (name ++ '\x7d' :: rest) (name ++ ['\x7d']) .badName

theorem endsName_iff {c : Char} : endsName c = true ↔ c = '\x7d' ∨ Spoils c := by
  simp [endsName, Spoils, or_assoc]

theorem endsName_eq_false_iff {c : Char} : (!endsName c) = true ↔ c ≠ '\x7d' ∧ ¬ Spoils c := by
  rw [Bool.not_eq_true', ← Bool.not_eq_true, endsName_iff, not_or]

theorem throughBrace?_append {name : List Char} (unclosed : '\x7d' ∉ name) (rest : List Char) :
    throughBrace? (name ++ '\x7d' :: rest) = some (name ++ ['\x7d']) := by
  induction name with
  | nil => simp [throughBrace?]
  | cons c name ih =>
    rw [List.mem_cons, not_or] at unclosed
    simp [throughBrace?, ih unclosed.2, Ne.symm unclosed.1]

theorem throughBrace?_eq_none {text : List Char} (unclosed : '\x7d' ∉ text) :
    throughBrace? text = none := by
  induction text with
  | nil => rfl
  | cons c text ih =>
    rw [List.mem_cons, not_or] at unclosed
    simp [throughBrace?, ih unclosed.2, Ne.symm unclosed.1]

/-- The text could be a name, or part of one. -/
def Nameable (text : List Char) : Prop := ∀ c ∈ text, c ≠ '\x7d' ∧ ¬ Spoils c

/-- A text that could be a name is cut off in front of what cannot go on with it. -/
theorem cut_name {plain : List Char} (rest : List Char) (could : Nameable plain)
    (stops : ∀ c ∈ rest.head?, endsName c = true) :
    (plain ++ rest).takeWhile (!endsName ·) = plain ∧
      (plain ++ rest).dropWhile (!endsName ·) = rest := by
  have goesOn : ∀ c ∈ plain, (!endsName c) = true := fun c member =>
    endsName_eq_false_iff.mpr (could c member)
  rw [List.takeWhile_append_of_pos goesOn, List.dropWhile_append_of_pos goesOn]
  cases rest with
  | nil => simp
  | cons c rest =>
    have ends : endsName c = true := stops c rfl
    simp [ends]

theorem exists_cut (text : List Char) : ∃ plain rest, text = plain ++ rest ∧
    Nameable plain ∧ ∀ c ∈ rest.head?, endsName c = true := by
  refine ⟨text.takeWhile (!endsName ·), text.dropWhile (!endsName ·),
    List.takeWhile_append_dropWhile.symm, fun c member => ?_, fun c first => ?_⟩
  · exact endsName_eq_false_iff.mp (List.all_eq_true.mp List.all_takeWhile c member)
  · have stopped := List.head?_dropWhile_not (!endsName ·) text
    rw [Option.mem_def.mp first] at stopped
    simpa using stopped

theorem bodyProblem?_of_spoiled {plain : List Char} {c : Char} (could : Nameable plain)
    (spoils : Spoils c) :
    bodyProblem? (plain ++ c :: rest) =
      match throughBrace? (c :: rest) with
      | some through => some (plain ++ through, .badName)
      | none => some (plain, .unclosed) := by
  have cut := cut_name (c :: rest) could (by simp [endsName_iff, spoils])
  unfold bodyProblem?
  rw [cut.1, cut.2]
  simp only [Spoils, List.mem_cons, List.not_mem_nil, or_false] at spoils
  rcases spoils with rfl | rfl | rfl | rfl <;> rfl

theorem bodyProblem?_of_closed {name : List Char} (nonempty : name ≠ []) (could : Nameable name) :
    bodyProblem? (name ++ '\x7d' :: rest) = none := by
  have cut := cut_name ('\x7d' :: rest) could (by simp [endsName])
  unfold bodyProblem?
  rw [cut.1, cut.2]
  simp [nonempty]

theorem bodyProblem?_of_faulty {part : List Char} {problem : Problem}
    (faulty : Faulty body part problem) : bodyProblem? body = some (part, problem) := by
  cases faulty with
  | @unclosed part rest unclosed plain stops =>
    rw [List.mem_append, not_or] at unclosed
    have could : Nameable part := fun c member =>
      ⟨fun same => unclosed.1 (same ▸ member), plain c member⟩
    cases rest with
    | nil =>
      have cut := cut_name [] could (by simp)
      unfold bodyProblem?
      rw [cut.2, List.append_nil]
    | cons c rest =>
      rw [bodyProblem?_of_spoiled could (stops c rfl), throughBrace?_eq_none unclosed.2]
  | emptyName rest => rfl
  | @badName name rest unclosed spoiled =>
    -- The name is cut off in front of the first character that spoils it.
    obtain ⟨plain, left, rfl, could, stops⟩ := exists_cut name
    rw [List.mem_append, not_or] at unclosed
    cases left with
    | nil =>
      obtain ⟨c, member, spoils⟩ := spoiled
      rw [List.append_nil] at member
      exact absurd spoils (could c member).2
    | cons c left =>
      have spoils : Spoils c := (endsName_iff.mp (stops c rfl)).resolve_left fun same =>
        unclosed.2 (same ▸ List.mem_cons_self)
      rw [List.append_assoc, List.cons_append, bodyProblem?_of_spoiled could spoils,
        ← List.cons_append, throughBrace?_append unclosed.2, List.append_assoc]

theorem exists_faulty_of_unclosed (unclosed : '\x7d' ∉ body) :
    ∃ part, Faulty body part .unclosed := by
  obtain ⟨plain, rest, rfl, could, stops⟩ := exists_cut body
  have spoils : ∀ c ∈ rest.head?, Spoils c := fun c first =>
    (endsName_iff.mp (stops c first)).resolve_left fun same =>
      unclosed (List.mem_append_right _ (same ▸ List.mem_of_mem_head? first))
  exact ⟨plain, .unclosed unclosed (fun c member => (could c member).2) spoils⟩

theorem malformed_iff : Malformed body ↔ ∃ part problem, Faulty body part problem := by
  constructor
  · rintro (unclosed | ⟨name, rest, rfl, unclosed, rfl | spoiled⟩)
    · obtain ⟨part, faulty⟩ := exists_faulty_of_unclosed unclosed
      exact ⟨part, .unclosed, faulty⟩
    · exact ⟨_, _, .emptyName rest⟩
    · exact ⟨_, _, .badName unclosed spoiled⟩
  · rintro ⟨part, problem, faulty⟩
    cases faulty with
    | unclosed unclosed => exact .inl unclosed
    | emptyName rest => exact .inr ⟨[], rest, rfl, List.not_mem_nil, .inl rfl⟩
    | badName unclosed spoiled => exact .inr ⟨_, _, rfl, unclosed, .inr spoiled⟩

/-- A placeholder that is not malformed is closed behind a name. -/
theorem malformed_or_closed (body : List Char) :
    Malformed body ∨ ∃ name rest, body = name ++ '\x7d' :: rest ∧ name ≠ [] ∧ Nameable name := by
  by_cases closed : '\x7d' ∈ body
  · obtain ⟨name, rest, rfl, unclosed⟩ := List.eq_append_cons_of_mem closed
    by_cases bad : name = [] ∨ ∃ c ∈ name, Spoils c
    · exact .inl (.inr ⟨name, rest, rfl, unclosed, bad⟩)
    · rw [not_or, not_exists] at bad
      exact .inr ⟨name, rest, rfl, bad.1, fun c member =>
        ⟨fun same => unclosed (same ▸ member), fun spoils => bad.2 c ⟨member, spoils⟩⟩⟩
  · exact .inl (.inl closed)

theorem bodyProblem?_eq_some_iff {part : List Char} {problem : Problem} :
    bodyProblem? body = some (part, problem) ↔ Faulty body part problem := by
  refine ⟨fun found => ?_, bodyProblem?_of_faulty⟩
  rcases malformed_or_closed body with malformed | ⟨name, rest, rfl, nonempty, could⟩
  · obtain ⟨part', problem', faulty⟩ := malformed_iff.mp malformed
    cases found.symm.trans (bodyProblem?_of_faulty faulty)
    exact faulty
  · cases found.symm.trans (bodyProblem?_of_closed nonempty could)

/-! ### The first malformed placeholder -/

/-- The reading of a text comes to a placeholder that no rule takes and that is malformed; `body`
is what stands behind its opening brace. -/
structure MalformedAt (patterns : List String) (text passed body : List Char) : Prop where
  reached : Reaches patterns text passed ('%' :: '\x7b' :: body)
  untaken : ∀ pattern ∈ patterns, ¬ Begins pattern ('%' :: '\x7b' :: body)
  malformed : Malformed body

/-- There is none before it. -/
structure FirstMalformedAt (patterns : List String) (text passed body : List Char) : Prop extends
    MalformedAt patterns text passed body where
  first : ∀ earlier other, MalformedAt patterns text earlier other → passed <+: earlier

theorem placeholderProblem?_eq_some_iff {c : Char} {part : List Char} {problem : Problem} :
    placeholderProblem? c text = some (part, problem) ↔
      ∃ body, c = '%' ∧ text = '\x7b' :: body ∧ Faulty body part problem := by
  simp only [← bodyProblem?_eq_some_iff]
  constructor
  · intro found
    unfold placeholderProblem? at found
    split at found
    next body => exact ⟨body, rfl, rfl, found⟩
    next => cases found
  · rintro ⟨body, rfl, rfl, found⟩
    exact found

/-- A malformed placeholder opens with a copied percent sign. -/
theorem MalformedAt.copied (stands : Stands patterns segment (segment.text ++ text))
    (malformed : MalformedAt patterns (segment.text ++ text) [] body) :
    segment = .copied '%' ∧ text = '\x7b' :: body := by
  have whole : segment.text ++ text = '%' :: '\x7b' :: body := malformed.reached.whole
  cases stands with
  | percent => cases whole
  | occurrence single here begins first =>
    exact absurd (whole ▸ begins) (malformed.untaken _ (List.mem_of_getElem? here))
  | copied single none =>
    cases whole
    exact ⟨rfl, rfl⟩

/-- A malformed placeholder is at the segment that is next, or behind it. -/
theorem malformedAt_next_iff (stands : Stands patterns segment (segment.text ++ text)) :
    MalformedAt patterns (segment.text ++ text) passed body ↔
      passed = [] ∧ MalformedAt patterns (segment.text ++ text) [] body ∨
        ∃ later, passed = segment.text ++ later ∧ MalformedAt patterns text later body := by
  constructor
  · rintro ⟨reached, untaken, malformed⟩
    rcases (reaches_next_iff stands).mp reached with ⟨rfl, -⟩ | ⟨later, rfl, reached'⟩
    · exact .inl ⟨rfl, reached, untaken, malformed⟩
    · exact .inr ⟨later, rfl, reached', untaken, malformed⟩
  · rintro (⟨rfl, malformed⟩ | ⟨later, rfl, reached, untaken, malformed⟩)
    · exact malformed
    · exact ⟨.behind stands reached, untaken, malformed⟩

theorem FirstMalformedAt.unique {passed' body' : List Char}
    (first : FirstMalformedAt patterns text passed body)
    (first' : FirstMalformedAt patterns text passed' body') : passed = passed' ∧ body = body' := by
  have before := first.first passed' body' first'.toMalformedAt
  have behind := first'.first passed body first.toMalformedAt
  obtain rfl := before.eq_of_length_le behind.length_le
  have whole := first.reached.whole.symm.trans first'.reached.whole
  cases List.append_cancel_left whole
  exact ⟨rfl, rfl⟩

/-- The first segment opens a malformed placeholder, or what is malformed comes behind it. -/
theorem malformed?_next {segments : List Segment}
    (stands : Stands patterns segment (segment.text ++ text))
    (segmented : Segmented patterns text segments) (offset : Nat) :
    (∃ body part problem, MalformedAt patterns (segment.text ++ text) [] body ∧
      Faulty body part problem ∧ malformed? offset (segment :: segments) =
        some ⟨String.ofList ('%' :: '\x7b' :: part), offset, problem⟩) ∨
    (∀ body, ¬ MalformedAt patterns (segment.text ++ text) [] body) ∧
      malformed? offset (segment :: segments) =
        malformed? (offset + Text.byteLength segment.text) segments := by
  -- Only a copied character can open a placeholder; whether it does is a question to the text
  -- behind it.
  cases segment with
  | percent | occurrence place pattern =>
    exact .inr ⟨fun body malformed => Segment.noConfusion (malformed.copied stands).1, rfl⟩
  | copied c =>
    rw [malformed?, segmented.text_eq]
    cases found : placeholderProblem? c text with
    | some answer =>
      obtain ⟨part, problem⟩ := answer
      obtain ⟨body, rfl, rfl, faulty⟩ := placeholderProblem?_eq_some_iff.mp found
      cases stands with
      | copied single none =>
        have malformed := malformed_iff.mpr ⟨part, problem, faulty⟩
        exact .inl ⟨body, part, problem, ⟨.here _, none, malformed⟩, faulty, rfl⟩
    | none =>
      refine .inr ⟨fun body malformed => ?_, rfl⟩
      obtain ⟨same, rfl⟩ := malformed.copied stands
      cases same
      obtain ⟨part, problem, faulty⟩ := malformed_iff.mp malformed.malformed
      have found' := placeholderProblem?_eq_some_iff.mpr ⟨body, rfl, rfl, faulty⟩
      cases found.symm.trans found'

theorem malformed?_eq_none {segments : List Segment}
    (segmented : Segmented patterns text segments) {offset : Nat}
    (well : malformed? offset segments = none) : ¬ MalformedAt patterns text passed body := by
  induction segmented generalizing offset passed with
  | done => exact fun malformed => absurd malformed.reached.whole (by simp)
  | next stands segmented ih =>
    rcases malformed?_next stands segmented offset with ⟨_, _, _, -, -, found⟩ | ⟨front, skipped⟩
    · cases found.symm.trans well
    · rw [malformedAt_next_iff stands]
      rintro (⟨-, malformed⟩ | ⟨later, -, malformed⟩)
      · exact front body malformed
      · exact ih (skipped.symm.trans well) malformed

theorem malformed?_eq_some {segments : List Segment}
    (segmented : Segmented patterns text segments) {offset : Nat} {e : Error}
    (found : malformed? offset segments = some e) :
    ∃ passed body part, FirstMalformedAt patterns text passed body ∧ Faulty body part e.problem ∧
      e.token = String.ofList ('%' :: '\x7b' :: part) ∧
      e.offset = offset + Text.byteLength passed := by
  -- By induction on the segments: the first problem stands at the first segment, or behind it at
  -- the place that the rest finds, moved by that segment's length.
  induction segmented generalizing offset with
  | done => cases found
  | @next segment text segments stands segmented ih =>
    rcases malformed?_next stands segmented offset with
      ⟨body, part, problem, malformed, faulty, here⟩ | ⟨front, skipped⟩
    · cases here.symm.trans found
      exact ⟨[], body, part, ⟨malformed, fun _ _ _ => List.nil_prefix⟩, faulty, rfl, rfl⟩
    · obtain ⟨passed, body, part, ⟨malformed, first⟩, faulty, token, place⟩ :=
        ih (skipped.symm.trans found)
      refine ⟨segment.text ++ passed, body, part, ⟨?_, fun earlier other malformed' => ?_⟩, faulty,
        token, ?_⟩
      · exact (malformedAt_next_iff stands).mpr (.inr ⟨passed, rfl, malformed⟩)
      · rcases (malformedAt_next_iff stands).mp malformed' with ⟨-, here⟩ | ⟨later, rfl, behind⟩
        · exact absurd here (front other)
        · exact (List.prefix_append_right_inj _).mpr (first later other behind)
      · rw [place, Text.byteLength_append, Nat.add_assoc]

end

/-! ### Failing -/

theorem substitute_eq_error_iff_malformed? {rules : List Rule} {template : String}
    {segments : List Segment}
    (segmented : Segmented (rules.map (·.pattern)) template.toList segments) {e : Error} :
    substitute rules template = .error e ↔ malformed? 0 segments = some e := by
  rw [substitute_of_segmented segmented, outcome]
  cases malformed? 0 segments <;> simp

section

variable {rules : List Rule} {template : String} {passed body part : List Char}
  {problem : Problem} {e : Error}

theorem first_malformed_of_error (failed : substitute rules template = .error e) :
    ∃ passed body part,
      FirstMalformedAt (rules.map (·.pattern)) template.toList passed body ∧
      Faulty body part e.problem ∧ e.token = String.ofList ('%' :: '\x7b' :: part) ∧
      e.offset = Text.byteLength passed := by
  obtain ⟨segments, segmented⟩ := exists_segmented (rules.map (·.pattern)) template.toList
  have found := (substitute_eq_error_iff_malformed? segmented).mp failed
  obtain ⟨passed, body, part, first, faulty, token, place⟩ := malformed?_eq_some segmented found
  exact ⟨passed, body, part, first, faulty, token, by rw [place, Nat.zero_add]⟩

theorem exists_error_of_malformed
    (malformed : MalformedAt (rules.map (·.pattern)) template.toList passed body) :
    ∃ e, substitute rules template = .error e := by
  obtain ⟨segments, segmented⟩ := exists_segmented (rules.map (·.pattern)) template.toList
  cases found : malformed? 0 segments with
  | some e => exact ⟨e, (substitute_eq_error_iff_malformed? segmented).mpr found⟩
  | none => exact absurd malformed (malformed?_eq_none segmented found)

theorem Faulty.unique {part' : List Char} {problem' : Problem} (faulty : Faulty body part problem)
    (faulty' : Faulty body part' problem') : part = part' ∧ problem = problem' := by
  cases (bodyProblem?_of_faulty faulty).symm.trans (bodyProblem?_of_faulty faulty')
  exact ⟨rfl, rfl⟩

theorem Faulty.part_prefix (faulty : Faulty body part problem) : part <+: body := by
  cases faulty with
  | unclosed => exact List.prefix_append _ _
  | emptyName rest => exact ⟨rest, rfl⟩
  | @badName name rest => exact ⟨rest, by simp⟩

end

/-! ### Applied rules -/

/-- The rule at this place of a list is applied where `passed` has been read: its pattern is the
first one that stands there, and nothing malformed has ended the reading before. -/
structure AppliedAt (patterns : List String) (place : Nat) (text passed : List Char) : Prop where
  stands : ∃ pattern rest, Reaches patterns text passed rest ∧
    Stands patterns (.occurrence place pattern) rest
  unbroken : ∀ earlier body, MalformedAt patterns text earlier body → ¬ earlier <+: passed

/-- The rule at this place of the list is applied somewhere in the template. -/
def Applied (rules : List Rule) (place : Nat) (template : String) : Prop :=
  ∃ passed, AppliedAt (rules.map (·.pattern)) place template.toList passed

section

variable {rules : List Rule} {segment : Segment} {text passed rest : List Char}

theorem pattern_getElem? {place : Nat} {rule : Rule} (here : rules[place]? = some rule) :
    (rules.map (·.pattern))[place]? = some rule.pattern := by
  rw [List.getElem?_map, here, Option.map_some]

theorem map_append_append (front behind : List Char) (checked : Except Error (List Char)) :
    (front ++ ·) <$> (behind ++ ·) <$> checked = (front ++ behind ++ ·) <$> checked := by
  cases checked with
  | error e => rfl
  | ok text => exact congrArg Except.ok (List.append_assoc front behind text).symm

/-- A segment that opens nothing malformed puts its output in front of the rest. -/
theorem substituteFrom_next (offset : Nat)
    (stands : Stands (rules.map (·.pattern)) segment (segment.text ++ text))
    (well : ∀ body, ¬ MalformedAt (rules.map (·.pattern)) (segment.text ++ text) [] body) :
    substituteFrom rules offset (segment.text ++ text) =
      (segment.output rules ++ ·) <$>
        substituteFrom rules (offset + Text.byteLength segment.text) text := by
  obtain ⟨segments, segmented⟩ := exists_segmented (rules.map (·.pattern)) text
  rw [substituteFrom_of_segmented (.next stands segmented), substituteFrom_of_segmented segmented,
    outcome, outcome]
  rcases malformed?_next stands segmented offset with ⟨body, _, _, malformed, -⟩ | ⟨-, skipped⟩
  · exact absurd malformed (well body)
  · rw [skipped]
    cases malformed? (offset + Text.byteLength segment.text) segments <;> rfl

/-- Up to a place with nothing malformed before it, something has been written, and the rest is
substituted behind it. -/
theorem Reaches.written (reached : Reaches (rules.map (·.pattern)) text passed rest)
    (unbroken : ∀ earlier body, MalformedAt (rules.map (·.pattern)) text earlier body →
      ¬ earlier <+: passed) (offset : Nat) :
    ∃ written, substituteFrom rules offset text =
      (written ++ ·) <$> substituteFrom rules (offset + Text.byteLength passed) rest := by
  -- By induction on what is reached. That no placeholder is malformed up to there is handed on to
  -- the text behind the first segment.
  induction reached generalizing offset with
  | here text => exact ⟨[], by simp [Text.byteLength]⟩
  | @behind segment text passed rest stands reached ih =>
    have well := fun body malformed => unbroken [] body malformed List.nil_prefix
    have unbroken' : ∀ earlier body, MalformedAt (rules.map (·.pattern)) text earlier body →
        ¬ earlier <+: passed := fun earlier body malformed before =>
      unbroken _ body ((malformedAt_next_iff stands).mpr (.inr ⟨earlier, rfl, malformed⟩))
        ((List.prefix_append_right_inj _).mpr before)
    obtain ⟨written, later⟩ := ih unbroken' (offset + Text.byteLength segment.text)
    refine ⟨segment.output rules ++ written, ?_⟩
    rw [substituteFrom_next offset stands well, later, map_append_append, Text.byteLength_append,
      Nat.add_assoc]

/-- A rule that is applied writes its replacement, and the reading goes on behind its pattern. -/
theorem AppliedAt.written {place : Nat} {rule : Rule} (here : rules[place]? = some rule)
    (applied : AppliedAt (rules.map (·.pattern)) place text passed) (offset : Nat) :
    ∃ written rest, text = passed ++ rule.pattern.toList ++ rest ∧
      substituteFrom rules offset text = (written ++ rule.replacement.toList ++ ·) <$>
        substituteFrom rules (offset + Text.byteLength (passed ++ rule.pattern.toList)) rest := by
  obtain ⟨⟨pattern, left, reached, stands⟩, unbroken⟩ := applied
  obtain ⟨written, up⟩ := reached.written unbroken offset
  cases stands with
  | occurrence single here' begins first =>
    cases (pattern_getElem? here).symm.trans here'
    obtain ⟨rest, rfl⟩ := begins.begins
    have stands : Stands (rules.map (·.pattern)) (.occurrence place rule.pattern)
        ((Segment.occurrence place rule.pattern).text ++ rest) :=
      .occurrence single here' begins first
    have next := substituteFrom_next (offset + Text.byteLength passed) stands
      fun body malformed => Segment.noConfusion (malformed.copied stands).1
    have output : (Segment.occurrence place rule.pattern).output rules =
        rule.replacement.toList := by
      rw [Segment.output, here]
    refine ⟨written, rest, by rw [reached.whole, List.append_assoc], ?_⟩
    rw [up]
    change _ <$> substituteFrom rules _ ((Segment.occurrence place rule.pattern).text ++ rest) = _
    rw [next, output, map_append_append, Text.byteLength_append, Nat.add_assoc]
    rfl

end

theorem utf8ByteSize_ofList (cs : List Char) :
    (String.ofList cs).utf8ByteSize = Text.byteLength cs := by
  rw [← byteLength_toList, String.toList_ofList]

/-- Substitution fails just if the reading comes to a malformed placeholder that no rule takes. The
error tells of the first one: it has the number of bytes in front of it, what is wrong with it,
and as its token the piece of the template that begins there and ends where `Faulty` says. -/
theorem substitute_fails_at_first_malformed (rules : List Rule) (template : String) :
    ((∃ e, substitute rules template = .error e) ↔
      ∃ passed body, MalformedAt (rules.map (·.pattern)) template.toList passed body) ∧
    ∀ e, substitute rules template = .error e ↔ ∃ passed body part after,
      FirstMalformedAt (rules.map (·.pattern)) template.toList passed body ∧
      template = String.ofList passed ++ e.token ++ String.ofList after ∧
      e.offset = (String.ofList passed).utf8ByteSize ∧
      e.token = "%\x7b" ++ String.ofList part ∧ Faulty body part e.problem := by
  have opens (part : List Char) :
      String.ofList ('%' :: '\x7b' :: part) = "%\x7b" ++ String.ofList part := by
    rw [← String.ofList_toList (s := "%\x7b"), ← String.ofList_append]
    rfl
  refine ⟨⟨?_, ?_⟩, fun e => ⟨fun failed => ?_, ?_⟩⟩
  · rintro ⟨e, failed⟩
    obtain ⟨passed, body, part, first, -⟩ := first_malformed_of_error failed
    exact ⟨passed, body, first.toMalformedAt⟩
  · rintro ⟨passed, body, malformed⟩
    exact exists_error_of_malformed malformed
  · obtain ⟨passed, body, part, first, faulty, token, place⟩ := first_malformed_of_error failed
    obtain ⟨after, split⟩ := faulty.part_prefix
    refine ⟨passed, body, part, after, first, ?_, ?_, token.trans (opens part), faulty⟩
    · rw [token, ← String.ofList_append, ← String.ofList_append,
        ← String.ofList_toList (s := template), first.reached.whole, ← split]
      simp
    · rw [place, utf8ByteSize_ofList]
  -- There is one first place and one thing to tell about it, so this is the error that is given.
  · rintro ⟨passed, body, part, after, first, -, place, token, faulty⟩
    obtain ⟨e', failed⟩ := exists_error_of_malformed first.toMalformedAt
    obtain ⟨passed', body', part', first', faulty', token', place'⟩ :=
      first_malformed_of_error failed
    obtain ⟨rfl, rfl⟩ := first.unique first'
    obtain ⟨rfl, problem⟩ := faulty.unique faulty'
    have same : e' = e := by
      rw [utf8ByteSize_ofList] at place
      rw [← opens] at token
      obtain ⟨text, offset, kind⟩ := e
      obtain ⟨text', offset', kind'⟩ := e'
      rw [Error.mk.injEq]
      exact ⟨token'.trans token.symm, place'.trans place.symm, problem.symm⟩
    exact same ▸ failed

/-- A letter of two bytes, what a rule takes and what is escaped are passed before it. -/
example : substitute [⟨"%\x7bx\x7d", "y"⟩] "é %\x7bx\x7d %%\x7b %\x7ba b" =
    .error ⟨"%\x7ba", 12, .unclosed⟩ := by
  decide +kernel

end SuiteRunner.Substitution
