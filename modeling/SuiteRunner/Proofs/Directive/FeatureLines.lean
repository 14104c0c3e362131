import Mathlib.Tactic.ByContra
import SuiteRunner.Proofs.Directive.Continuation
import SuiteRunner.Proofs.Directive.Entries

/-!
# Lines that list expressions

Each line led by `REQUIRES:`, `XFAIL:` or `UNSUPPORTED:` is read on its own, whatever commands
are open and whatever is wrong elsewhere: it gives its expressions, or the error of its first bad
entry. What is found in a text is what these lines give and what becomes of the groups of its
`RUN:` lines.
-/

namespace SuiteRunner.Directive

open Feature

/-! ### One line -/

/-- A line that lists expressions: the text behind its marker, and its number. -/
structure FeatureLine where
  kind : FeatureKind
  rest : List Char
  line : Nat
  deriving DecidableEq, Repr

def featureLine? (line : List Char × Nat) : Option FeatureLine :=
  match role? line.1 with
  | some (.features kind rest) => some ⟨kind, rest, line.2⟩
  | none | some (.run _) => none

/-- The lines of a text that list expressions and are read. -/
def featureLines (source : String) : List FeatureLine :=
  (heard 1 (Text.lines source.toList)).filterMap featureLine?

/-- The expressions of one kind among the directives of a test. -/
def FeatureKind.exprs : FeatureKind → TestDirectives → List Expr
  | requires => TestDirectives.requires
  | xfail => TestDirectives.xfail
  | unsupported => TestDirectives.unsupported

namespace FeatureLine

/-- A line gives the expressions of all its entries, or the error of the first one that is none. -/
inductive Gives (line : FeatureLine) : Except Error (List Expr) → Prop where
  | exprs {exprs : List Expr}
      (accepted : List.Forall₂ Accepts (Text.split ',' line.rest) exprs) : Gives line (.ok exprs)
  | error {before after : List (List Char)} {item : List Char} {cause : Cause}
      (entries : Text.split ',' line.rest = before ++ item :: after)
      (accepted : ∀ earlier ∈ before, ∃ expr, Accepts earlier expr)
      (refused : Refuses line.kind.marker.name item cause) : Gives line (.error ⟨line.line, cause⟩)

/-- What a line gives, as it is read. -/
def contribution (line : FeatureLine) : Except Error (List Expr) :=
  (entries line.kind.marker.name line.rest).mapError (⟨line.line, ·⟩)

end FeatureLine

theorem FeatureLine.gives_iff {line : FeatureLine} {result : Except Error (List Expr)} :
    line.Gives result ↔ line.contribution = result := by
  rw [contribution]
  constructor
  · rintro (accepted | ⟨split, accepted, refused⟩)
    · rw [entries_eq_ok_iff.mpr accepted]
      rfl
    · rw [entries_eq_error_iff.mpr ⟨_, _, _, split, accepted, refused⟩]
      rfl
  · rintro rfl
    cases read : entries line.kind.marker.name line.rest with
    | ok exprs => exact .exprs (entries_eq_ok_iff.mp read)
    | error cause =>
      obtain ⟨before, item, after, split, accepted, refused⟩ := entries_eq_error_iff.mp read
      exact .error split accepted refused

/-! ### All lines -/

namespace FeatureLine

/-- The directive of a line that lists these expressions. -/
def directive (line : FeatureLine) (exprs : List Expr) : Item :=
  ⟨line.kind.kind exprs, line.line⟩

def directive? (line : FeatureLine) : Option Item :=
  line.contribution.toOption.map line.directive

end FeatureLine

namespace Progress

/-- What was found that has nothing to do with commands. -/
def features (progress : Progress) : Progress where
  directives := progress.directives.filter (!·.kind.isRun)
  errors := progress.errors.filter (!·.cause.isRun)

def addFeatures (progress : Progress) (line : FeatureLine) : Progress :=
  progress.addEntries line.kind.marker line.kind.kind line.line line.rest

theorem features_addRun (progress : Progress) (number : Nat) (rest : List Char) :
    (progress.addRun number rest).features = progress.features := by
  simp only [addRun]
  split
  · rfl
  · split <;> simp [features, addDirective, addError, Kind.isRun, Cause.isRun]

theorem features_addEntries (progress : Progress) (kind : FeatureKind) (number : Nat)
    (rest : List Char) :
    (progress.addEntries kind.marker kind.kind number rest).features =
      progress.features.addEntries kind.marker kind.kind number rest := by
  simp only [addEntries]
  split
  · cases kind <;> simp [features, addDirective, FeatureKind.kind, Kind.isRun]
  next cause failed => simp [features, addError, isRun_of_entries failed]

theorem features_addLine (progress : Progress) (line : List Char × Nat) :
    (progress.addLine line).features =
      match featureLine? line with
      | some line => progress.features.addFeatures line
      | none => progress.features := by
  rw [addLine, featureLine?]
  cases role? line.1 with
  | none => rfl
  | some role =>
    cases role with
    | run rest => exact features_addRun progress line.2 rest
    | features kind rest => exact features_addEntries progress kind line.2 rest

theorem features_progressOf (source : String) :
    (progressOf source).features = (featureLines source).foldl addFeatures {} := by
  rw [progressOf, featureLines, List.foldl_filterMap]
  refine (List.foldl_hom features fun progress line => ?_).symm
  rw [features_addLine]
  cases featureLine? line <;> rfl

theorem addFeatures_eq (progress : Progress) (line : FeatureLine) :
    progress.addFeatures line =
      match line.contribution with
      | .ok exprs => progress.addDirective (line.directive exprs)
      | .error e => progress.addError e := by
  rw [addFeatures, addEntries, FeatureLine.contribution]
  cases entries line.kind.marker.name line.rest <;> rfl

theorem foldl_addFeatures (progress : Progress) (lines : List FeatureLine) :
    lines.foldl addFeatures progress = progress.followedBy
      ⟨lines.filterMap FeatureLine.directive?, failed (lines.map FeatureLine.contribution),
        progress.openRun⟩ := by
  induction lines generalizing progress with
  | nil => exact (followedBy_nothing progress).symm
  | cons line lines ih =>
    rw [List.foldl_cons, ih, addFeatures_eq, List.filterMap_cons, FeatureLine.directive?,
      List.map_cons, failed, failed, List.filterMap_cons]
    cases line.contribution with
    | ok exprs => simp [followedBy, addDirective, Except.toOption]
    | error e => simp [followedBy, addError, Except.toOption]

end Progress

theorem features_eq (source : String) : (progressOf source).features =
    ⟨(featureLines source).filterMap FeatureLine.directive?,
      failed ((featureLines source).map FeatureLine.contribution), none⟩ := by
  rw [Progress.features_progressOf, Progress.foldl_addFeatures]
  rfl

theorem failed_map_ne_nil_iff {α β : Type} {items : List α} {f : α → Except Error β} :
    failed (items.map f) ≠ [] ↔ ∃ item ∈ items, ∃ e, f item = .error e := by
  rw [failed, Ne, List.filterMap_eq_nil_iff, List.forall_mem_map]
  constructor
  -- If no item failed, none would be left over, and each item is one or the other.
  · intro faulty
    by_contra sound
    refine faulty fun item member => ?_
    cases given : f item with
    | ok value => rfl
    | error e => exact absurd ⟨item, member, e, given⟩ sound
  · rintro ⟨item, member, e, given⟩ sound
    have none := sound item member
    rw [given] at none
    cases none

theorem ne_nil_iff_filter {α : Type} (p : α → Bool) (items : List α) :
    items ≠ [] ↔ items.filter (!p ·) ≠ [] ∨ items.filter p ≠ [] := by
  cases items with
  | nil => simp
  | cons item items => cases here : p item <;> simp [here]

/-- Lines that list expressions and give no error give one directive each. -/
theorem forall₂_directive? {lines : List FeatureLine}
    (sound : failed (lines.map FeatureLine.contribution) = []) :
    List.Forall₂ (fun line directive => ∃ exprs, FeatureLine.Gives line (.ok exprs) ∧
      directive = line.directive exprs) lines (lines.filterMap FeatureLine.directive?) := by
  -- A line that is at fault would be among the failures, so each line gives its expressions.
  induction lines with
  | nil => exact .nil
  | cons line lines ih =>
    rw [List.filterMap_cons, FeatureLine.directive?]
    rw [List.map_cons, failed, List.filterMap_cons] at sound
    cases given : line.contribution with
    | ok exprs =>
      rw [given] at sound
      exact .cons ⟨exprs, FeatureLine.gives_iff.mpr given, rfl⟩ (ih sound)
    | error e =>
      rw [given] at sound
      cases sound

/-! ### Directives by kind -/

/-- The expressions of a directive, if it is of this kind. -/
def FeatureKind.listed (kind : FeatureKind) (directive : Item) : List Expr :=
  match kind, directive.kind with
  | .requires, .requires exprs | .xfail, .xfail exprs | .unsupported, .unsupported exprs => exprs
  | _, _ => []

theorem FeatureKind.listed_directive (kind : FeatureKind) (line : FeatureLine) (exprs : List Expr) :
    kind.listed (line.directive exprs) = if line.kind = kind then exprs else [] := by
  obtain ⟨other, rest, number⟩ := line
  cases kind <;> cases other <;> rfl

theorem FeatureKind.exprs_ofDirectives (kind : FeatureKind) (directives : List Item) :
    kind.exprs (TestDirectives.ofDirectives directives) = directives.flatMap kind.listed := by
  have added (grouped : TestDirectives) : kind.exprs (directives.foldl TestDirectives.add grouped) =
      kind.exprs grouped ++ directives.flatMap kind.listed := by
    induction directives generalizing grouped with
    | nil => exact (List.append_nil _).symm
    | cons directive directives ih =>
      rw [List.foldl_cons, ih, List.flatMap_cons, ← List.append_assoc]
      congr 1
      obtain ⟨what, line⟩ := directive
      cases kind <;> cases what <;> simp [exprs, listed, TestDirectives.add]
  have all := added {}
  rwa [show kind.exprs {} = [] by cases kind <;> rfl, List.nil_append] at all

theorem FeatureKind.flatMap_listed (kind : FeatureKind) (directives : List Item) :
    directives.flatMap kind.listed = (directives.filter (!·.kind.isRun)).flatMap kind.listed := by
  induction directives with
  | nil => rfl
  | cons directive directives ih =>
    obtain ⟨what, line⟩ := directive
    rw [List.flatMap_cons, ih]
    cases what with
    | run => cases kind <;> rfl
    | requires | xfail | unsupported => rfl

theorem exists_lists (kind : FeatureKind) {lines : List FeatureLine} {directives : List Item}
    (given : List.Forall₂ (fun line directive => ∃ exprs, FeatureLine.Gives line (.ok exprs) ∧
      directive = line.directive exprs) lines directives) :
    ∃ lists, List.Forall₂ (fun line exprs => FeatureLine.Gives line (.ok exprs))
        (lines.filter (·.kind = kind)) lists ∧
      directives.flatMap kind.listed = lists.flatten := by
  induction given with
  | nil => exact ⟨[], .nil, rfl⟩
  | @cons line directive lines directives here others ih =>
    obtain ⟨lists, given, listed⟩ := ih
    obtain ⟨exprs, gives, rfl⟩ := here
    rw [List.flatMap_cons, FeatureKind.listed_directive, listed]
    by_cases same : line.kind = kind
    · rw [if_pos same, List.filter_cons_of_pos (by simpa using same)]
      exact ⟨exprs :: lists, .cons gives given, rfl⟩
    · rw [if_neg same, List.filter_cons_of_neg (by simpa using same)]
      exact ⟨lists, given, rfl⟩

/-! ### The answer for a text -/

section

variable {source : String} {directives : List Item}

theorem errors_of_features (source : String) :
    (progressOf source).errors.filter (!·.cause.isRun) =
      failed ((featureLines source).map FeatureLine.contribution) :=
  congrArg Progress.errors (features_eq source)

theorem errors_of_runs (source : String) :
    (progressOf source).errors.filter (·.cause.isRun) =
      failed (Joining.byText.outcomes (runParts source)) :=
  (congrArg Progress.errors (runs_eq source)).trans (List.append_nil _)

/-- A reading fails by a line that lists expressions, by an empty command or by one left open. -/
theorem exists_read_error_iff : (∃ errors, read source = .error errors) ↔
    (∃ line ∈ featureLines source, ∃ e, line.Gives (.error e)) ∨
    (∃ group ∈ (Joining.byText.groups [] (runParts source)).closed,
      ∃ e, Makes (joinedText group) (firstLine group) (.error e)) ∨
    (Joining.byText.groups [] (runParts source)).left ≠ [] := by
  have fails : (∃ errors, read source = .error errors) ↔ (progressOf source).faults ≠ [] := by
    simp only [read_eq_error_iff, exists_eq_left']
  have open_ (left : List RunPart) : unterminated left ≠ [] ↔ left ≠ [] := by
    rw [unterminated]
    split <;> simp_all
  -- the errors fall into those that have to do with commands and those that do not
  rw [fails, faults_eq, Ne, List.append_eq_nil_iff, not_and_or, ← Ne, ← Ne,
    ne_nil_iff_filter (·.cause.isRun), errors_of_features, errors_of_runs, Joining.outcomes,
    failed_map_ne_nil_iff, failed_map_ne_nil_iff, open_, or_assoc]
  simp only [FeatureLine.gives_iff, makes_iff, eq_comm (a := Except.error _)]
  rfl

/-- In a reading without errors each line that lists expressions gives one directive. -/
theorem directives_of_features (answer : read source = .ok directives) :
    List.Forall₂ (fun line directive => ∃ exprs, FeatureLine.Gives line (.ok exprs) ∧
      directive = line.directive exprs)
      (featureLines source) (directives.filter (!·.kind.isRun)) := by
  obtain ⟨sound, rfl⟩ := read_eq_ok_iff.mp answer
  have none : (progressOf source).errors = [] :=
    (List.append_eq_nil_iff.mp ((faults_eq source).symm.trans sound)).1
  have given := errors_of_features source
  rw [none, List.filter_nil] at given
  have same : (progressOf source).directives.filter (!·.kind.isRun) =
      (featureLines source).filterMap FeatureLine.directive? :=
    congrArg Progress.directives (features_eq source)
  rw [same]
  exact forall₂_directive? given.symm

theorem parse_of_read (answer : read source = .ok directives) :
    TestDirectives.parse source = .ok (TestDirectives.ofDirectives directives) := by
  rw [TestDirectives.parse, answer]
  rfl

end

/-- Each line that lists expressions gives them, or one error, whatever is in the other lines. -/
theorem feature_lines_complete (source : String) :
    let lines := featureLines source
    let groups := Joining.byText.groups [] (runParts source)
    ∃ contributions outcomes,
      List.Forall₂ FeatureLine.Gives lines contributions ∧
      List.Forall₂ (fun group outcome => Makes (joinedText group) (firstLine group) outcome)
        groups.closed outcomes ∧
      ((∃ errors, read source = .error errors) ↔
        (∃ line ∈ lines, ∃ e, line.Gives (.error e)) ∨
        (∃ group ∈ groups.closed, ∃ e, Makes (joinedText group) (firstLine group) (.error e)) ∨
        groups.left ≠ []) ∧
      (∀ directives, read source = .ok directives →
        List.Forall₂ (fun line directive => ∃ exprs, FeatureLine.Gives line (.ok exprs) ∧
          directive = line.directive exprs) lines (directives.filter (!·.kind.isRun)) ∧
        ∃ grouped, TestDirectives.parse source = .ok grouped ∧ ∀ kind : FeatureKind,
          ∃ lists, List.Forall₂ (fun line exprs => FeatureLine.Gives line (.ok exprs))
              (lines.filter (·.kind = kind)) lists ∧
            kind.exprs grouped = lists.flatten) ∧
      (∀ errors, read source = .error errors →
        ∃ found, errors = found ++ unterminated groups.left ∧
          found.filter (!·.cause.isRun) = failed contributions ∧
          found.filter (·.cause.isRun) = failed outcomes) := by
  intro lines groups
  refine ⟨lines.map FeatureLine.contribution, Joining.byText.outcomes (runParts source),
    ?_, ?_, exists_read_error_iff, fun directives answer => ?_, fun errors answer => ?_⟩
  · exact List.forall₂_map_right_iff.mpr (List.forall₂_same.mpr fun line _ =>
      FeatureLine.gives_iff.mpr rfl)
  · exact List.forall₂_map_right_iff.mpr (List.forall₂_same.mpr fun group _ => makes_outcome _ _)
  · have given := directives_of_features answer
    refine ⟨given, _, parse_of_read answer, fun kind => ?_⟩
    rw [FeatureKind.exprs_ofDirectives, FeatureKind.flatMap_listed]
    exact exists_lists kind given
  · obtain ⟨rfl, -⟩ := read_eq_error_iff.mp answer
    exact ⟨_, faults_eq source, errors_of_features source, errors_of_runs source⟩

end SuiteRunner.Directive
