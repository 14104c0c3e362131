import Mathlib.Data.List.Induction
import SuiteRunner.Directive.Marker
import SuiteRunner.Proofs.Text.Cutting

/-!
# The leading marker of a line

Wherever a marker word occurs with no word character directly in front of it, the marker stands;
the one that stands leftmost leads the line. A search that skips a glued occurrence misses nothing,
as every place inside the word comes behind a word character too.
-/

namespace SuiteRunner.Directive

/-! ### Places of markers -/

/-- A word stands in a line between two parts of it, with no word character before it. -/
structure StandsBetween (word line before rest : List Char) : Prop where
  whole : line = before ++ (word ++ rest)
  unglued : glues before.getLast? = false

namespace Marker

/-- A marker stands somewhere in a line. -/
def StandsIn (marker : Marker) (line : List Char) : Prop :=
  ∃ before rest, StandsBetween marker.word line before rest

/-- A marker stands in a line, and no marker stands further to the left; `rest` is the text
behind it. -/
def Leads (marker : Marker) (line rest : List Char) : Prop :=
  ∃ before, StandsBetween marker.word line before rest ∧
    ∀ other before' rest', StandsBetween (word other) line before' rest' →
      before.length ≤ before'.length

end Marker

/-- No marker stands in the line. -/
def Silent (line : List Char) : Prop := ∀ marker : Marker, ¬ marker.StandsIn line

/-- The line is led by the marker that stops the reading, and nothing but blanks is behind it. -/
def Stops (line : List Char) : Prop :=
  ∃ rest, Marker.stop.Leads line rest ∧ ∀ c ∈ rest, Text.isBlank c = true

section

variable {word line before before' rest rest' passed cs : List Char} {w c : Char}

theorem StandsBetween.eq_of_length (stands : StandsBetween word line before rest)
    (split : line = passed ++ cs) (length : before.length = passed.length) :
    before = passed ∧ cs = word ++ rest := by
  obtain ⟨front, back⟩ := List.append_inj (stands.whole.symm.trans split) length
  exact ⟨front, back.symm⟩

/-! ### Searching for one word -/

/-- No place of the word is left of `position`. -/
def NoneBefore (word line : List Char) (position : Nat) : Prop :=
  ∀ before rest, StandsBetween word line before rest → position ≤ before.length

/-- The answer of a search: the leftmost place of the word, if it has one. -/
def Answers (word line : List Char) : Option Find → Prop
  | none => ∀ before rest, ¬ StandsBetween word line before rest
  | some found => ∃ before, before.length = found.position ∧
      StandsBetween word line before found.rest ∧ NoneBefore word line found.position

/-- A place at which the word does not stand is passed. -/
theorem NoneBefore.pass (free : NoneBefore word line passed.length)
    (split : line = passed ++ c :: cs) (differs : ∀ rest, c :: cs ≠ word ++ rest) :
    NoneBefore word line (passed.length + 1) := by
  intro before rest stands
  have further : before.length ≠ passed.length := fun same =>
    differs rest (stands.eq_of_length split same).2
  have reached := free before rest stands
  omega

theorem mem_dropLast_of_getLast? {part : List Char} (starts : part <+: word)
    (shorter : part.length < word.length) (last : part.getLast? = some c) : c ∈ word.dropLast := by
  obtain ⟨others, rfl⟩ := starts
  have more : others ≠ [] := by
    rintro rfl
    rw [List.append_nil] at shorter
    exact Nat.lt_irrefl _ shorter
  rw [List.dropLast_append_of_ne_nil more]
  exact List.mem_append_left _ (List.mem_of_getLast? last)

/-- A glued word is passed as a whole: every place inside of it is glued as well. -/
theorem NoneBefore.skip (free : NoneBefore word line passed.length)
    (split : line = passed ++ (word ++ cs)) (glued : glues passed.getLast? = true)
    (gluing : ∀ c ∈ word.dropLast, glues (some c) = true) :
    NoneBefore word line (passed.length + word.length) := by
  intro before rest stands
  rw [← Nat.not_lt]
  intro inside
  -- a place inside of the word comes behind a part of it, whose last character glues
  obtain ⟨part, rfl⟩ : passed <+: before :=
    List.prefix_of_prefix_length_le ⟨_, split.symm⟩ ⟨_, stands.whole.symm⟩
      (free before rest stands)
  rw [List.length_append, Nat.add_lt_add_iff_left] at inside
  have same : part ++ (word ++ rest) = word ++ cs := by
    have whole := stands.whole
    rw [split, List.append_assoc] at whole
    exact (List.append_cancel_left whole).symm
  have within : part <+: word :=
    List.prefix_of_prefix_length_le ⟨_, same⟩ ⟨_, rfl⟩ (Nat.le_of_lt inside)
  have unglued := stands.unglued
  rw [List.getLast?_append] at unglued
  cases last : part.getLast? with
  | none => rw [last, Option.none_or, glued] at unglued; cases unglued
  | some c =>
    rw [last, Option.some_or, gluing c (mem_dropLast_of_getLast? within inside last)] at unglued
    cases unglued

theorem answers_here (split : line = passed ++ (word ++ rest))
    (unglued : glues passed.getLast? = false) (free : NoneBefore word line passed.length) :
    Answers word line (some ⟨passed.length, rest⟩) :=
  ⟨passed, rfl, ⟨split, unglued⟩, free⟩

theorem findUnglued_answers {word : List Char} {position : Nat} {previous : Option Char}
    (gluing : ∀ c ∈ (w :: word).dropLast, glues (some c) = true) (split : line = passed ++ cs)
    (reached : position = passed.length) (behind : previous = passed.getLast?)
    (free : NoneBefore (w :: word) line position) :
    Answers (w :: word) line (findUnglued w word position previous cs) := by
  -- By the recursion of the search. `free` is the invariant: no unglued occurrence starts before
  -- the position. A glued one is jumped over as a whole, since its own characters glue what starts
  -- inside of it.
  fun_induction findUnglued w word position previous cs generalizing passed with
  | case1 position previous =>
    intro before rest stands
    have far := free before rest stands
    have whole := congrArg List.length stands.whole
    rw [split, List.append_nil, List.length_append, List.length_append, List.length_cons] at whole
    omega
  | case2 position previous rest after found shorter glued ih =>
    subst reached behind
    obtain rfl : rest = word ++ after := Text.eq_append_of_after? found
    have split' : line = passed ++ w :: word ++ after := by
      rw [split, List.append_assoc, List.cons_append]
    refine ih split' ?_ ?_ (free.skip split glued gluing)
    · rw [List.length_append, List.length_cons, Nat.add_assoc]
    · rw [List.getLast?_append, List.getLast?_cons, Option.some_or]
  | case3 position previous rest after found shorter unglued =>
    subst reached behind
    refine answers_here ?_ (by simpa using unglued) free
    rw [split, Text.eq_append_of_after? found, List.cons_append]
  | case4 position previous rest missing ih =>
    subst reached behind
    have passing := free.pass split fun later same => by
      rw [(List.cons.inj same).2, List.append_eq, Text.after?_append] at missing
      cases missing
    exact ih (split.trans (List.append_cons _ _ _)) (by simp) (by simp) passing
  | case5 position previous c rest differs ih =>
    subst reached behind
    have passing := free.pass split fun later same => differs (List.cons.inj same).1.symm
    exact ih (split.trans (List.append_cons _ _ _)) (by simp) (by simp) passing

/-- Of a marker word, only the sign at its end does not glue. -/
theorem Marker.word_gluing (marker : Marker) :
    ∀ c ∈ marker.word.dropLast, glues (some c) = true := by
  have all : (marker.word.dropLast.all fun c => glues (some c)) = true := by cases marker <;> rfl
  exact List.all_eq_true.mp all

theorem Marker.find_answers (marker : Marker) (line : List Char) :
    Answers marker.word line (marker.find line) := by
  have gluing := marker.word_gluing
  have start : NoneBefore marker.word line 0 := fun before _ _ => Nat.zero_le before.length
  have split : line = [] ++ line := rfl
  cases marker <;> exact findUnglued_answers gluing split rfl rfl start

/-! ### The leftmost of all finds -/

/-- What comes out of several finds: the one furthest to the left, if there is one. -/
def Leftmost (finds : List (Option (Marker × Find))) : Option (Marker × Find) → Prop
  | none => ∀ marker found, some (marker, found) ∉ finds
  | some (marker, found) => some (marker, found) ∈ finds ∧
      ∀ other found', some (other, found') ∈ finds → found.position ≤ found'.position

theorem position_le_concat {finds : List (Option (Marker × Find))} {marker : Marker}
    {found : Find} {position : Nat} (near : position ≤ found.position)
    (least : ∀ other found', some (other, found') ∈ finds → position ≤ found'.position) :
    ∀ other found', some (other, found') ∈ finds ++ [some (marker, found)] →
      position ≤ found'.position := by
  intro other found' member
  rcases List.mem_append.mp member with before | last
  · exact least other found' before
  · cases List.mem_singleton.mp last
    exact near

theorem Leftmost.earlier {finds : List (Option (Marker × Find))} {best : Option (Marker × Find)}
    (leftmost : Leftmost finds best) (candidate : Option (Marker × Find)) :
    Leftmost (finds ++ [candidate]) (earlier best candidate) := by
  cases candidate with
  | none =>
    have same : Directive.earlier best none = best := by cases best <;> rfl
    rw [same]
    cases best <;> simpa [Leftmost] using leftmost
  | some candidate =>
    obtain ⟨marker, found⟩ := candidate
    cases best with
    | none =>
      have least := @position_le_concat _ marker _ _ (Nat.le_refl found.position)
        fun other found' before => absurd before (leftmost other found')
      exact ⟨by simp, least⟩
    | some best =>
      obtain ⟨first, place⟩ := best
      obtain ⟨member, least⟩ := leftmost
      simp only [Directive.earlier]
      -- a tie keeps what was found first
      split
      next less =>
        refine ⟨by simp, position_le_concat (Nat.le_refl _) fun other found' before => ?_⟩
        exact Nat.le_trans (Nat.le_of_lt less) (least other found' before)
      next further =>
        exact ⟨List.mem_append_left _ member, position_le_concat (Nat.le_of_not_lt further) least⟩

theorem foldl_earlier_leftmost (finds : List (Option (Marker × Find))) :
    Leftmost finds (finds.foldl earlier none) := by
  induction finds using List.reverseRecOn with
  | nil => exact fun _ _ => List.not_mem_nil
  | append_singleton finds candidate ih =>
    rw [List.foldl_append]
    exact ih.earlier candidate

/-! ### The leading marker -/

theorem Marker.mem_all (marker : Marker) : marker ∈ all := by
  cases marker <;> decide

/-- The first two characters tell the words apart. -/
theorem Marker.word_append_inj {marker other : Marker} {rest rest' : List Char}
    (same : marker.word ++ rest = other.word ++ rest') : marker = other ∧ rest = rest' := by
  have long (marker : Marker) : 2 ≤ marker.word.length := by cases marker <;> decide
  have start : marker.word.take 2 = other.word.take 2 := by
    have both := congrArg (List.take 2) same
    rwa [List.take_append_of_le_length (long marker),
      List.take_append_of_le_length (long other)] at both
  obtain rfl : marker = other := by
    revert start
    cases marker <;> cases other <;> decide
  exact ⟨rfl, List.append_cancel_left same⟩

theorem Marker.Leads.unique {marker other : Marker} (leads : marker.Leads line rest)
    (leads' : other.Leads line rest') : marker = other ∧ rest = rest' := by
  obtain ⟨before, stands, first⟩ := leads
  obtain ⟨before', stands', first'⟩ := leads'
  have place : before.length = before'.length :=
    Nat.le_antisymm (first other before' rest' stands') (first' marker before rest stands)
  exact Marker.word_append_inj (stands.eq_of_length stands'.whole place).2.symm

/-- What the searches for the markers find in a line. -/
def finds (line : List Char) : List (Option (Marker × Find)) :=
  Marker.all.map fun marker => (marker.find line).map (marker, ·)

theorem mem_finds_iff {marker : Marker} {found : Find} :
    some (marker, found) ∈ finds line ↔ marker.find line = some found := by
  rw [finds, List.mem_map]
  constructor
  · rintro ⟨other, -, same⟩
    obtain ⟨found', here, pair⟩ := Option.map_eq_some_iff.mp same
    cases pair
    exact here
  · intro here
    exact ⟨marker, marker.mem_all, by rw [here, Option.map_some]⟩

/-- Where a marker stands, the search for it does not go past. -/
theorem Marker.exists_find {marker : Marker} (stands : StandsBetween marker.word line before rest) :
    ∃ found, marker.find line = some found ∧ found.position ≤ before.length := by
  have answers := marker.find_answers line
  cases here : marker.find line with
  | none =>
    rw [here] at answers
    exact absurd stands (answers before rest)
  | some found =>
    rw [here] at answers
    obtain ⟨-, -, -, free⟩ := answers
    exact ⟨found, rfl, free before rest stands⟩

theorem findMarker_eq (line : List Char) :
    findMarker line = ((finds line).foldl earlier none).map fun best => (best.1, best.2.rest) :=
  rfl

theorem findMarker_answers (line : List Char) :
    match findMarker line with
    | none => Silent line
    | some (marker, rest) => marker.Leads line rest := by
  -- Each marker has its own first occurrence, and `earlier` keeps the leftmost of them.
  have leftmost := foldl_earlier_leftmost (finds line)
  rw [findMarker_eq]
  cases best : (finds line).foldl earlier none with
  | none =>
    rw [best] at leftmost
    rintro marker ⟨before, rest, stands⟩
    obtain ⟨found, here, -⟩ := Marker.exists_find stands
    exact leftmost marker found (mem_finds_iff.mpr here)
  | some best' =>
    obtain ⟨marker, found⟩ := best'
    rw [best] at leftmost
    obtain ⟨member, least⟩ := leftmost
    have answers := marker.find_answers line
    rw [mem_finds_iff.mp member] at answers
    obtain ⟨before, place, stands, -⟩ := answers
    refine ⟨before, stands, fun other before' rest' stands' => ?_⟩
    obtain ⟨found', here, near⟩ := Marker.exists_find stands'
    rw [place]
    exact Nat.le_trans (least other found' (mem_finds_iff.mpr here)) near

theorem findMarker_eq_none_iff : findMarker line = none ↔ Silent line := by
  have answers := findMarker_answers line
  cases found : findMarker line with
  | none => simpa [found] using answers
  | some answer =>
    rw [found] at answers
    obtain ⟨before, stands, -⟩ := answers
    exact iff_of_false nofun fun silent => silent answer.1 ⟨before, answer.2, stands⟩

theorem findMarker_eq_some_iff {marker : Marker} :
    findMarker line = some (marker, rest) ↔ marker.Leads line rest := by
  have answers := findMarker_answers line
  cases found : findMarker line with
  | none =>
    rw [found] at answers
    refine iff_of_false nofun ?_
    rintro ⟨before, stands, -⟩
    exact answers marker ⟨before, rest, stands⟩
  | some answer =>
    rw [found] at answers
    constructor
    · intro same
      cases Option.some.inj same
      exact answers
    · intro leads
      obtain ⟨same, same'⟩ := leads.unique answers
      rw [same, same']

/-! ### Lines that stop the reading -/

theorem stops_iff : Stops line ↔
    ∃ rest, findMarker line = some (.stop, rest) ∧ Text.trim rest = [] := by
  simp only [Stops, findMarker_eq_some_iff, Text.trim_eq_nil_iff]

instance : DecidablePred Stops := fun line =>
  match found : findMarker line with
  | some (.stop, rest) =>
    decidable_of_iff (Text.trim rest = []) <| by
      simp [stops_iff, found]
  | none | some (.run, _) | some (.requires, _) | some (.xfail, _) | some (.unsupported, _) =>
    .isFalse <| by simp [stops_iff, found]

instance (line : List Char) : Decidable (Silent line) :=
  decidable_of_iff (findMarker line = none) findMarker_eq_none_iff

theorem Silent.not_stops (silent : Silent line) : ¬ Stops line := fun ⟨rest, leads, _⟩ =>
  silent .stop (leads.imp fun _ found => ⟨rest, found.1⟩)

/-! ### Carriage returns -/

theorem StandsBetween.append (stands : StandsBetween word line before rest) (more : List Char) :
    StandsBetween word (line ++ more) before (rest ++ more) :=
  ⟨by rw [stands.whole]; simp only [List.append_assoc], stands.unglued⟩

/-- A character that is not in the word is not the end of its place. -/
theorem StandsBetween.of_concat (stands : StandsBetween word (line ++ [c]) before rest)
    (spelled : word ≠ []) (foreign : c ∉ word) :
    ∃ rest', rest = rest' ++ [c] ∧ StandsBetween word line before rest' := by
  have whole := stands.whole
  rcases List.eq_nil_or_concat rest with rfl | ⟨front, d, rfl⟩
  · rw [List.append_nil, ← List.dropLast_concat_getLast spelled, ← List.append_assoc] at whole
    cases (List.append_inj' whole rfl).2
    exact absurd (List.getLast_mem spelled) foreign
  · rw [List.concat_eq_append, ← List.append_assoc, ← List.append_assoc] at whole
    obtain ⟨split, same⟩ := List.append_inj' whole rfl
    cases same
    exact ⟨front, List.concat_eq_append, by rw [split, List.append_assoc], stands.unglued⟩

theorem Marker.cr_not_mem_word (marker : Marker) : marker.word ≠ [] ∧ '\r' ∉ marker.word := by
  cases marker <;> decide

theorem Marker.leads_concat_iff {marker : Marker} :
    marker.Leads (line ++ ['\r']) rest ↔
      ∃ rest', rest = rest' ++ ['\r'] ∧ marker.Leads line rest' := by
  -- No marker has the character at the end in its word, so what stands in the longer line stands in
  -- the shorter.
  have shorten {marker : Marker} {before rest}
      (stands : StandsBetween marker.word (line ++ ['\r']) before rest) :=
    stands.of_concat marker.cr_not_mem_word.1 marker.cr_not_mem_word.2
  constructor
  · rintro ⟨before, stands, first⟩
    obtain ⟨rest', rfl, stands'⟩ := shorten stands
    exact ⟨rest', rfl, before, stands', fun other before' rest'' found =>
      first other before' _ (found.append ['\r'])⟩
  · rintro ⟨rest', rfl, before, stands, first⟩
    refine ⟨before, stands.append ['\r'], fun other before' rest found => ?_⟩
    obtain ⟨rest'', -, found'⟩ := shorten found
    exact first other before' rest'' found'

theorem Silent.of_concat (silent : Silent (line ++ ['\r'])) : Silent line :=
  fun marker ⟨before, _, stands⟩ => silent marker ⟨before, _, stands.append ['\r']⟩

theorem Stops.of_concat (stops : Stops (line ++ ['\r'])) : Stops line := by
  obtain ⟨rest, leads, blank⟩ := stops
  obtain ⟨rest', rfl, leads'⟩ := Marker.leads_concat_iff.mp leads
  exact ⟨rest', leads', fun c member => blank c (List.mem_append_left _ member)⟩

end

end SuiteRunner.Directive
