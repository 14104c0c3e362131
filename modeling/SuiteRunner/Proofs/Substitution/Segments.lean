import SuiteRunner.Proofs.Except
import SuiteRunner.Substitution.Engine

/-!
# The segments of a template

The patterns of the rules alone cut a template into segments: doubled percent signs,
occurrences of patterns, and single characters between them. Every template is cut in
exactly one way. Substitution copies the characters, halves the percent signs and puts a
replacement for each occurrence, unless a copied percent sign opens a malformed
placeholder, so no replacement has a part in what becomes of the rest of the template.
-/

namespace SuiteRunner.Substitution

/-! ### Cutting a template -/

/-- A piece of a template: a copied character, a doubled percent sign, or an occurrence of
the pattern at some place of the list. -/
inductive Segment where
  | copied (c : Char)
  | percent
  | occurrence (place : Nat) (pattern : String)
  deriving DecidableEq, Repr

/-- What the segment takes from the template. -/
def Segment.text : Segment → List Char
  | copied c => [c]
  | percent => ['%', '%']
  | occurrence _ pattern => pattern.toList

/-- The text begins with the pattern; the empty pattern never counts. -/
structure Begins (pattern : String) (text : List Char) : Prop where
  nonempty : pattern ≠ ""
  begins : pattern.toList <+: text

/-- The segment that stands at the beginning of a text: a doubled percent sign before every
pattern, and among the patterns the first one that begins the text. -/
inductive Stands (patterns : List String) : Segment → List Char → Prop where
  | percent (rest : List Char) : Stands patterns .percent ('%' :: '%' :: rest)
  | occurrence {place : Nat} {pattern : String} {text : List Char}
      (single : ¬ ['%', '%'] <+: text) (here : patterns[place]? = some pattern)
      (begins : Begins pattern text)
      (first : ∀ earlier < place, ∀ other, patterns[earlier]? = some other → ¬ Begins other text) :
      Stands patterns (.occurrence place pattern) text
  | copied {c : Char} {rest : List Char} (single : ¬ ['%', '%'] <+: c :: rest)
      (none : ∀ pattern ∈ patterns, ¬ Begins pattern (c :: rest)) :
      Stands patterns (.copied c) (c :: rest)

/-- The text is this sequence of segments, each of them the one that stands there. -/
inductive Segmented (patterns : List String) : List Char → List Segment → Prop where
  | done : Segmented patterns [] []
  | next {segment : Segment} {rest : List Char} {segments : List Segment}
      (stands : Stands patterns segment (segment.text ++ rest))
      (segmented : Segmented patterns rest segments) :
      Segmented patterns (segment.text ++ rest) (segment :: segments)

/-- Either no pattern begins the text, or one of them is the first to do so. -/
theorem exists_first_begins (patterns : List String) (text : List Char) :
    (∀ pattern ∈ patterns, ¬ Begins pattern text) ∨
      ∃ (place : Nat) (pattern : String), patterns[place]? = some pattern ∧
        Begins pattern text ∧
        ∀ earlier < place, ∀ other, patterns[earlier]? = some other → ¬ Begins other text := by
  induction patterns with
  | nil => exact .inl fun pattern member => absurd member List.not_mem_nil
  | cons head patterns ih =>
    by_cases begins : Begins head text
    · exact .inr ⟨0, head, rfl, begins, fun earlier before => absurd before (Nat.not_lt_zero _)⟩
    · rcases ih with nowhere | ⟨place, pattern, here, begins', first⟩
      · exact .inl (List.forall_mem_cons.mpr ⟨begins, nowhere⟩)
      · refine .inr ⟨place + 1, pattern, here, begins', fun earlier before other found => ?_⟩
        cases earlier with
        | zero => exact Option.some.inj found ▸ begins
        | succ earlier => exact first earlier (Nat.lt_of_succ_lt_succ before) other found

theorem Segment.text_ne_nil {patterns : List String} {segment : Segment} {text : List Char}
    (stands : Stands patterns segment text) : segment.text ≠ [] := by
  cases stands with
  | percent => exact List.cons_ne_nil _ _
  | occurrence single here begins first =>
    exact fun empty => begins.nonempty (String.toList_eq_nil_iff.mp empty)
  | copied single none => exact List.cons_ne_nil _ _

/-- Some segment stands at the beginning of every text that is not empty. -/
theorem exists_stands (patterns : List String) (c : Char) (text : List Char) :
    ∃ segment rest, Stands patterns segment (c :: text) ∧ c :: text = segment.text ++ rest := by
  by_cases doubled : ['%', '%'] <+: c :: text
  · obtain ⟨rest, split⟩ := doubled
    exact ⟨.percent, rest, split ▸ .percent rest, split.symm⟩
  · rcases exists_first_begins patterns (c :: text) with
      nowhere | ⟨place, pattern, here, begins, first⟩
    · exact ⟨.copied c, text, .copied doubled nowhere, rfl⟩
    · obtain ⟨rest, split⟩ := begins.begins
      exact ⟨.occurrence place pattern, rest, .occurrence doubled here begins first, split.symm⟩

/-- Every text can be cut into segments. -/
theorem exists_segmented (patterns : List String) (text : List Char) :
    ∃ segments, Segmented patterns text segments := by
  -- Each segment takes at least one character, so what follows it is shorter.
  induction length : text.length using Nat.strongRecOn generalizing text with
  | ind size ih =>
    cases text with
    | nil => exact ⟨[], .done⟩
    | cons c text =>
      obtain ⟨segment, rest, stands, split⟩ := exists_stands patterns c text
      have shorter : rest.length < size := by
        have positive := List.length_pos_iff.mpr (Segment.text_ne_nil stands)
        rw [← length, split, List.length_append]
        omega
      obtain ⟨segments, segmented⟩ := ih rest.length shorter rest rfl
      rw [split] at stands ⊢
      exact ⟨segment :: segments, .next stands segmented⟩

/-- The segment that stands at the beginning of a text is determined by it. -/
theorem Stands.unique {patterns : List String} {segment other : Segment} {text : List Char}
    (stands : Stands patterns segment text) (stands' : Stands patterns other text) :
    segment = other := by
  cases stands with
  | percent rest =>
    cases stands' with
    | percent => rfl
    | occurrence single => exact absurd ⟨rest, rfl⟩ single
    | copied single => exact absurd ⟨rest, rfl⟩ single
  | @occurrence place pattern _ single here begins first =>
    cases stands' with
    | percent rest => exact absurd ⟨rest, rfl⟩ single
    | @occurrence place' pattern' _ single' here' begins' first' =>
      -- Neither place is before the other, since both patterns begin the text.
      have same : place = place' := by
        rcases Nat.lt_trichotomy place place' with before | same | behind
        · exact absurd begins (first' place before pattern here)
        · exact same
        · exact absurd begins' (first place' behind pattern' here')
      subst same
      cases here.symm.trans here'
      rfl
    | copied single' none => exact absurd begins (none pattern (List.mem_of_getElem? here))
  | @copied c rest single none =>
    cases stands' with
    | percent rest => exact absurd ⟨rest, rfl⟩ single
    | occurrence single' here begins => exact absurd begins (none _ (List.mem_of_getElem? here))
    | copied => rfl

/-- A text is cut into segments in one way only. -/
theorem Segmented.unique {patterns : List String} {text : List Char}
    {segments others : List Segment} (segmented : Segmented patterns text segments)
    (segmented' : Segmented patterns text others) : segments = others := by
  -- By induction on one segmentation. What stands at the front of a text is unique, so the other
  -- one starts with the same segment and goes on in the same rest.
  induction segmented generalizing others with
  | done =>
    generalize empty : ([] : List Char) = text at segmented'
    cases segmented' with
    | done => rfl
    | next stands =>
      exact absurd (List.append_eq_nil_iff.mp empty.symm).1 (Segment.text_ne_nil stands)
  | @next segment rest segments stands segmented ih =>
    generalize whole : segment.text ++ rest = text at stands segmented'
    cases segmented' with
    | done => exact absurd (List.append_eq_nil_iff.mp whole).1 (Segment.text_ne_nil stands)
    | next stands' segmented' =>
      cases stands.unique stands'
      cases List.append_cancel_left whole
      rw [ih segmented']

/-! ### What is written for the segments -/

/-- What is written for one segment. -/
def Segment.output (rules : List Rule) : Segment → List Char
  | copied c => [c]
  | percent => ['%']
  | occurrence place _ =>
    match rules[place]? with
    | some rule => rule.replacement.toList
    | none => []

/-- What is written for a sequence of segments. -/
def render (rules : List Rule) (segments : List Segment) : List Char :=
  segments.flatMap (·.output rules)

/-- The first malformed placeholder that a copied character opens, in segments that begin at
byte `offset` of the template. -/
def malformed? : (offset : Nat) → List Segment → Option Error
  | _, [] => none
  | offset, .copied c :: segments =>
    match placeholderProblem? c (segments.flatMap Segment.text) with
    | some (part, problem) => some ⟨String.ofList ('%' :: '\x7b' :: part), offset, problem⟩
    | none => malformed? (offset + c.utf8Size) segments
  | offset, segment :: segments => malformed? (offset + Text.byteLength segment.text) segments

theorem Segmented.text_eq {patterns : List String} {text : List Char} {segments : List Segment}
    (segmented : Segmented patterns text segments) : segments.flatMap Segment.text = text := by
  induction segmented with
  | done => rfl
  | next stands segmented ih => rw [List.flatMap_cons, ih]

/-! ### The first rule that applies -/

theorem Rule.first?_cons_of_begins {rule : Rule} (rules : List Rule) (rest : List Char)
    (nonempty : rule.pattern ≠ "") :
    Rule.first? (rule :: rules) (rule.pattern.toList ++ rest) = some (rule, rest) := by
  unfold Rule.first?
  split
  next empty => exact absurd (String.toList_eq_nil_iff.mp empty) nonempty
  next => rw [Text.after?_append]

theorem Rule.first?_cons_of_not_begins {rule : Rule} (rules : List Rule) {text : List Char}
    (other : ¬ Begins rule.pattern text) :
    Rule.first? (rule :: rules) text = Rule.first? rules text := by
  conv => lhs; unfold Rule.first?
  split
  next => rfl
  next occupied =>
    split
    next rest found =>
      have begins : rule.pattern.toList <+: text := ⟨rest, (Text.eq_append_of_after? found).symm⟩
      exact absurd ⟨fun empty => occupied (by rw [empty]; rfl), begins⟩ other
    next => rfl

/-- Where a pattern is the first of all to begin the text, its rule applies. -/
theorem Rule.first?_of_place {rules : List Rule} {place : Nat} {rule : Rule} {rest : List Char}
    (here : rules[place]? = some rule) (nonempty : rule.pattern ≠ "")
    (first : ∀ earlier < place, ∀ other, (rules.map (·.pattern))[earlier]? = some other →
      ¬ Begins other (rule.pattern.toList ++ rest)) :
    Rule.first? rules (rule.pattern.toList ++ rest) = some (rule, rest) := by
  induction rules generalizing place with
  | nil => cases here
  | cons head rules ih =>
    cases place with
    | zero =>
      cases here
      exact first?_cons_of_begins rules rest nonempty
    | succ place =>
      rw [first?_cons_of_not_begins rules (first 0 (Nat.succ_pos _) _ rfl)]
      exact ih here fun earlier before => first (earlier + 1) (Nat.succ_lt_succ before)

/-- Where no pattern begins the text, no rule applies. -/
theorem Rule.first?_of_none {rules : List Rule} {text : List Char}
    (none : ∀ pattern ∈ rules.map (·.pattern), ¬ Begins pattern text) :
    Rule.first? rules text = Option.none := by
  induction rules with
  | nil => rfl
  | cons head rules ih =>
    rw [List.map_cons, List.forall_mem_cons] at none
    rw [first?_cons_of_not_begins rules none.1, ih none.2]

/-! ### One step of the reading -/

theorem substituteFrom_nil (rules : List Rule) (offset : Nat) :
    substituteFrom rules offset [] = .ok [] := by
  rw [substituteFrom.eq_def]

theorem substituteFrom_percent (rules : List Rule) (offset : Nat) (rest : List Char) :
    substituteFrom rules offset ('%' :: '%' :: rest) =
      ('%' :: ·) <$> substituteFrom rules (offset + 2) rest := by
  rw [substituteFrom.eq_def]
  rfl

theorem substituteFrom_applied (offset : Nat) {rules : List Rule} {rule : Rule}
    {text after : List Char} (single : ¬ ['%', '%'] <+: text)
    (found : Rule.first? rules text = some (rule, after)) :
    substituteFrom rules offset text =
      (rule.replacement.toList ++ ·) <$>
        substituteFrom rules (offset + rule.pattern.utf8ByteSize) after := by
  rw [substituteFrom.eq_def]
  split
  next => exact absurd (Rule.first?_shorter found) (Nat.not_lt_zero _)
  next rest => exact absurd ⟨rest, rfl⟩ single
  next c rest =>
    split
    next rule' after' found' =>
      cases found'.symm.trans found
      rfl
    next missing => cases missing.symm.trans found

theorem substituteFrom_copied (offset : Nat) {rules : List Rule} {c : Char} {rest : List Char}
    (single : ¬ ['%', '%'] <+: c :: rest) (missing : Rule.first? rules (c :: rest) = none) :
    substituteFrom rules offset (c :: rest) =
      match placeholderProblem? c rest with
      | some (part, problem) => .error ⟨String.ofList ('%' :: '\x7b' :: part), offset, problem⟩
      | none => (c :: ·) <$> substituteFrom rules (offset + c.utf8Size) rest := by
  rw [substituteFrom.eq_def]
  split
  next empty => cases empty
  next rest' whole =>
    cases whole
    exact absurd ⟨rest', rfl⟩ single
  next c' rest' notDoubled whole =>
    cases whole
    split
    next rule after found => cases missing.symm.trans found
    next => rfl

/-! ### The whole reading -/

theorem byteLength_toList (pattern : String) :
    Text.byteLength pattern.toList = pattern.utf8ByteSize := by
  suffices ∀ cs : List Char, Text.byteLength cs = (String.ofList cs).utf8ByteSize by
    rw [this, String.ofList_toList]
  intro cs
  induction cs with
  | nil => rfl
  | cons c cs ih =>
    rw [Text.byteLength, ih, ← List.singleton_append, String.ofList_append,
      String.utf8ByteSize_append, ← String.singleton_eq_ofList, String.utf8ByteSize_singleton]

/-- What is written for a template cut into these segments, or what is wrong with it. -/
def outcome (rules : List Rule) (offset : Nat) (segments : List Segment) :
    Except Error (List Char) :=
  match malformed? offset segments with
  | some e => .error e
  | none => .ok (render rules segments)

/-- A segment other than a copied character puts its output in front. -/
theorem outcome_cons (rules : List Rule) (offset : Nat) {segment : Segment}
    (segments : List Segment) (whole : ∀ c, segment ≠ .copied c) :
    outcome rules offset (segment :: segments) =
      (segment.output rules ++ ·) <$>
        outcome rules (offset + Text.byteLength segment.text) segments := by
  have skipped : malformed? offset (segment :: segments) =
      malformed? (offset + Text.byteLength segment.text) segments := by
    cases segment with
    | copied c => exact absurd rfl (whole c)
    | _ => rfl
  unfold outcome
  rw [skipped]
  cases malformed? (offset + Text.byteLength segment.text) segments <;> rfl

theorem outcome_copied (rules : List Rule) (offset : Nat) (c : Char) (segments : List Segment) :
    outcome rules offset (.copied c :: segments) =
      match placeholderProblem? c (segments.flatMap Segment.text) with
      | some (part, problem) => .error ⟨String.ofList ('%' :: '\x7b' :: part), offset, problem⟩
      | none => (c :: ·) <$> outcome rules (offset + c.utf8Size) segments := by
  unfold outcome
  rw [malformed?]
  cases placeholderProblem? c (segments.flatMap Segment.text) with
  | some => rfl
  | none => cases malformed? (offset + c.utf8Size) segments <;> rfl

/-- Substitution follows the segments that the patterns of its rules cut. -/
theorem substituteFrom_of_segmented {rules : List Rule} {text : List Char}
    {segments : List Segment} (segmented : Segmented (rules.map (·.pattern)) text segments)
    (offset : Nat) : substituteFrom rules offset text = outcome rules offset segments := by
  -- The induction is on the segments; only the offset moves with them.
  induction segmented generalizing offset with
  | done => exact substituteFrom_nil rules offset
  | @next segment rest segments stands segmented ih =>
    cases segment with
    | percent =>
      rw [outcome_cons rules offset segments (fun c => Segment.noConfusion), ← ih]
      exact substituteFrom_percent rules offset rest
    | occurrence place pattern =>
      cases stands with
      | occurrence single here begins first =>
        rw [List.getElem?_map] at here
        obtain ⟨rule, here', rfl⟩ := Option.map_eq_some_iff.mp here
        have found := Rule.first?_of_place here' begins.nonempty first
        rw [outcome_cons rules offset segments (fun c => Segment.noConfusion), ← ih]
        rw [substituteFrom_applied offset single found, Segment.output, here', Segment.text,
          byteLength_toList]
    | copied c =>
      cases stands with
      | copied single none =>
        have missing := Rule.first?_of_none none
        rw [outcome_copied, ← ih, segmented.text_eq]
        exact substituteFrom_copied offset single missing

theorem substitute_of_segmented {rules : List Rule} {template : String} {segments : List Segment}
    (segmented : Segmented (rules.map (·.pattern)) template.toList segments) :
    substitute rules template = String.ofList <$> outcome rules 0 segments := by
  rw [substitute, substituteFrom_of_segmented segmented]

/-- Rules with the same patterns in the same order read every template alike. The patterns
cut the template into segments in exactly one way, and what is written are the segments with
the replacements put for the occurrences; or one and the same placeholder is malformed. -/
theorem substitute_reads_patterns_only {first second : List Rule}
    (same : first.map (·.pattern) = second.map (·.pattern)) (template : String) :
    ∃ segments, Segmented (first.map (·.pattern)) template.toList segments ∧
      (∀ others, Segmented (first.map (·.pattern)) template.toList others → others = segments) ∧
      ((∃ e, malformed? 0 segments = some e ∧
          substitute first template = .error e ∧ substitute second template = .error e) ∨
        (malformed? 0 segments = none ∧
          substitute first template = .ok (String.ofList (render first segments)) ∧
          substitute second template = .ok (String.ofList (render second segments)))) := by
  obtain ⟨segments, segmented⟩ := exists_segmented (first.map (·.pattern)) template.toList
  refine ⟨segments, segmented, fun others segmented' => segmented'.unique segmented, ?_⟩
  -- Both lists of rules see the same segments, which alone decide whether there is a problem.
  have written := substitute_of_segmented segmented
  have written' := substitute_of_segmented (same ▸ segmented)
  unfold outcome at written written'
  cases problem : malformed? 0 segments with
  | some e =>
    rw [problem] at written written'
    exact .inl ⟨e, rfl, written, written'⟩
  | none =>
    rw [problem] at written written'
    exact .inr ⟨rfl, written, written'⟩

/-- Neither a replacement that looks like a placeholder nor one that looks like an escape is
read again. -/
theorem substitute_reads_patterns_only_escape :
    ∃ segments, malformed? 0 segments = none ∧
      substitute [⟨"%s", "%t"⟩, ⟨"%t", "%%"⟩] "%%s %s%t" =
        .ok (String.ofList (render [⟨"%s", "%t"⟩, ⟨"%t", "%%"⟩] segments)) ∧
      substitute [⟨"%s", "%\x7b"⟩, ⟨"%t", "%s"⟩] "%%s %s%t" =
        .ok (String.ofList (render [⟨"%s", "%\x7b"⟩, ⟨"%t", "%s"⟩] segments)) := by
  have read : substitute [⟨"%s", "%t"⟩, ⟨"%t", "%%"⟩] "%%s %s%t" = .ok "%s %t%%" := by
    decide +kernel
  obtain ⟨segments, -, -, ⟨e, -, failed, -⟩ | written⟩ :=
    @substitute_reads_patterns_only [⟨"%s", "%t"⟩, ⟨"%t", "%%"⟩] [⟨"%s", "%\x7b"⟩, ⟨"%t", "%s"⟩]
      rfl "%%s %s%t"
  · cases failed.symm.trans read
  · exact ⟨segments, written⟩

end SuiteRunner.Substitution
