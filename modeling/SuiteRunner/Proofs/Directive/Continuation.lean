import SuiteRunner.Proofs.Directive.Entries
import SuiteRunner.Proofs.Directive.Reading

/-!
# Commands over several lines

The `RUN:` lines of a text fall into groups, and each group makes one command. By the rule that the
format announces, a line goes on in the next one if its own text ends in a backslash. The reading
looks at the text of all lines joined so far instead, less a backslash for each of them. The two
differ where an empty line comes behind a text that still ends in a backslash without the one that
continued it.
-/

namespace SuiteRunner.Directive

open Feature

/-! ### Joining lines -/

/-- A `RUN:` line: the text behind the marker, and the number of the line. -/
structure RunPart where
  rest : List Char
  line : Nat
  deriving DecidableEq, Repr

/-- What the line adds to a command. -/
def RunPart.body (part : RunPart) : List Char := Text.trim part.rest

def EndsInBackslash (text : List Char) : Prop := text.getLast? = some '\\'

instance : DecidablePred EndsInBackslash := fun _ => inferInstanceAs (Decidable (_ = _))

def withoutBackslash (text : List Char) : List Char :=
  if EndsInBackslash text then text.dropLast else text

/-- The texts of lines, each without the backslash it may end in. -/
def writtenText (group : List RunPart) : List Char :=
  group.flatMap fun part => withoutBackslash part.body

/-- The text that comes about line by line: each line takes a backslash off what is in front. -/
def joinedText (group : List RunPart) : List Char :=
  group.foldl (fun text part => withoutBackslash text ++ part.body) []

/-- A rule for joining lines: whether a group of lines goes on in the next line, and what its
text is. -/
structure Joining where
  goesOn : List RunPart → Bool
  text : List RunPart → List Char

/-- Groups of lines, and the lines of a group that goes on to the end. -/
structure Groups where
  closed : List (List RunPart)
  left : List RunPart
  deriving DecidableEq, Repr

namespace Joining

/-- A group ends at the first line with which it does not go on. -/
def groups (joining : Joining) (group : List RunPart) : List RunPart → Groups
  | [] => ⟨[], group⟩
  | part :: parts =>
    if joining.goesOn (group ++ [part]) then joining.groups (group ++ [part]) parts
    else
      let others := joining.groups [] parts
      { others with closed := (group ++ [part]) :: others.closed }

/-- The last line decides: a line goes on if it ends in a backslash, and loses it. -/
def byLine : Joining where
  goesOn group := group.getLast?.any fun part => EndsInBackslash part.body
  text := writtenText

/-- What is joined so far decides: it goes on if it ends in a backslash. -/
def byText : Joining where
  goesOn group := EndsInBackslash (joinedText group)
  text := joinedText

section

variable {joining : Joining} {group : List RunPart} {part : RunPart}

theorem groups_of_goesOn (goesOn : joining.goesOn (group ++ [part]) = true)
    (parts : List RunPart) :
    joining.groups group (part :: parts) = joining.groups (group ++ [part]) parts :=
  if_pos goesOn

theorem groups_of_ends (ends : joining.goesOn (group ++ [part]) = false) (parts : List RunPart) :
    joining.groups group (part :: parts) =
      ⟨(group ++ [part]) :: (joining.groups [] parts).closed, (joining.groups [] parts).left⟩ :=
  if_neg (Bool.eq_false_iff.mp ends)

theorem byLine_goesOn_concat :
    byLine.goesOn (group ++ [part]) = decide (EndsInBackslash part.body) := by
  simp only [byLine, List.getLast?_concat, Option.any_some]

theorem byLine_groups_of_carried (ends : EndsInBackslash part.body) (parts : List RunPart) :
    byLine.groups group (part :: parts) = byLine.groups (group ++ [part]) parts :=
  groups_of_goesOn (byLine_goesOn_concat.trans (decide_eq_true ends)) parts

theorem byLine_groups_of_last (last : ¬ EndsInBackslash part.body) (parts : List RunPart) :
    byLine.groups group (part :: parts) =
      ⟨(group ++ [part]) :: (byLine.groups [] parts).closed, (byLine.groups [] parts).left⟩ :=
  groups_of_ends (byLine_goesOn_concat.trans (decide_eq_false last)) parts

end

end Joining

/-! ### Commands -/

/-- The command in a text: what is left without the blanks around it and without a dash in front
and the blanks behind that. With a dash, failure does not propagate. -/
inductive Spells (text : List Char) : (command : List Char) → (propagates : Bool) → Prop where
  | plain (undashed : (Text.trim text).head? ≠ some '-') : Spells text (Text.trim text) true
  | dashed {rest : List Char} (dashed : Text.trim text = '-' :: rest) :
      Spells text (Text.trimStart rest) false

/-- What becomes of a text that begins in the line `number`. -/
inductive Makes (text : List Char) (number : Nat) : Except Error Item → Prop where
  | command {command : List Char} {propagates : Bool} (spells : Spells text command propagates)
      (nonempty : command ≠ []) :
      Makes text number (.ok ⟨.run ⟨String.ofList command, number, propagates⟩, number⟩)
  | empty {propagates : Bool} (spells : Spells text [] propagates) :
      Makes text number (.error ⟨number, .emptyRun⟩)

/-- The line in which a group begins. -/
def firstLine : List RunPart → Nat
  | [] => 0
  | part :: _ => part.line

def unterminated (left : List RunPart) : List Error :=
  if left = [] then [] else [⟨firstLine left, .unterminatedContinuation⟩]

/-- The directives among the outcomes. -/
def made (outcomes : List (Except Error Item)) : List Item :=
  outcomes.filterMap Except.toOption

/-- The errors among the outcomes. -/
def failed {α : Type} (outcomes : List (Except Error α)) : List Error :=
  outcomes.filterMap fun
    | .ok _ => none
    | .error e => some e

def runPart? (line : List Char × Nat) : Option RunPart :=
  match role? line.1 with
  | some (.run rest) => some ⟨rest, line.2⟩
  | none | some (.features _ _) => none

/-- The `RUN:` lines of a text that are read. -/
def runParts (source : String) : List RunPart :=
  (heard 1 (Text.lines source.toList)).filterMap runPart?

def Kind.isRun : Kind → Bool
  | .run _ => true
  | .requires _ | .xfail _ | .unsupported _ => false

def Cause.isRun : Cause → Bool
  | .emptyRun | .unterminatedContinuation => true
  | .emptyEntry _ | .badExpression _ _ => false

/-- The commands that are found in a text, and what is wrong with them, are those of its `RUN:`
lines joined in this way. -/
def Joining.Reads (joining : Joining) (source : String) : Prop :=
  let groups := joining.groups [] (runParts source)
  ∃ outcomes,
    List.Forall₂ (fun group outcome => Makes (joining.text group) (firstLine group) outcome)
      groups.closed outcomes ∧
    (progressOf source).directives.filter (·.kind.isRun) = made outcomes ∧
    (progressOf source).faults.filter (·.cause.isRun) = failed outcomes ++ unterminated groups.left

/-! ### The commands of a text are those of its `RUN:` lines -/

namespace Progress

/-- What was found that has to do with commands. -/
def runs (progress : Progress) : Progress where
  directives := progress.directives.filter (·.kind.isRun)
  errors := progress.errors.filter (·.cause.isRun)
  openRun := progress.openRun

def addPart (progress : Progress) (part : RunPart) : Progress :=
  progress.addRun part.line part.rest

theorem runs_addRun (progress : Progress) (number : Nat) (rest : List Char) :
    (progress.addRun number rest).runs = progress.runs.addRun number rest := by
  simp only [addRun]
  have same : progress.runs.openRun = progress.openRun := rfl
  rw [same]
  split
  · rfl
  · split <;> simp [runs, addDirective, addError, Kind.isRun, Cause.isRun]

theorem isRun_of_entries {directive : String} {rest : List Char} {cause : Cause}
    (failed : entries directive rest = .error cause) : cause.isRun = false := by
  obtain ⟨before, item, after, -, -, refused⟩ := entries_eq_error_iff.mp failed
  cases refused <;> rfl

theorem runs_addEntries (progress : Progress) (kind : FeatureKind) (number : Nat)
    (rest : List Char) :
    (progress.addEntries kind.marker kind.kind number rest).runs = progress.runs := by
  rw [addEntries]
  split
  · cases kind <;> simp [runs, addDirective, FeatureKind.kind, Kind.isRun]
  next cause failed => simp [runs, addError, isRun_of_entries failed]

theorem runs_addLine (progress : Progress) (line : List Char × Nat) :
    (progress.addLine line).runs =
      match runPart? line with
      | some part => progress.runs.addPart part
      | none => progress.runs := by
  rw [addLine, runPart?]
  cases role? line.1 with
  | none => rfl
  | some role =>
    cases role with
    | run rest => exact runs_addRun progress line.2 rest
    | features kind rest => exact runs_addEntries progress kind line.2 rest

theorem runs_progressOf (source : String) :
    (progressOf source).runs = (runParts source).foldl addPart {} := by
  rw [progressOf, runParts, List.foldl_filterMap]
  refine (List.foldl_hom runs fun progress line => ?_).symm
  rw [runs_addLine]
  cases runPart? line <;> rfl

theorem faults_runs (progress : Progress) :
    progress.runs.faults = progress.faults.filter (·.cause.isRun) := by
  rw [faults, faults, List.filter_append]
  cases opened : progress.openRun <;> simp [runs, opened, Cause.isRun]

end Progress

/-! ### What becomes of a group -/

def outcome (text : List Char) (number : Nat) : Except Error Item :=
  match RunLine.ofText? text number with
  | some line => .ok ⟨.run line, number⟩
  | none => .error ⟨number, .emptyRun⟩

section

variable {text command command' : List Char} {propagates propagates' : Bool} {number : Nat}
  {result result' : Except Error Item}

theorem Spells.unique (spells : Spells text command propagates)
    (spells' : Spells text command' propagates') :
    command = command' ∧ propagates = propagates' := by
  cases spells with
  | plain undashed =>
    cases spells' with
    | plain => exact ⟨rfl, rfl⟩
    | dashed dashed => exact absurd (congrArg List.head? dashed) undashed
  | dashed dashed =>
    cases spells' with
    | plain undashed => exact absurd (congrArg List.head? dashed) undashed
    | dashed dashed' =>
      cases dashed.symm.trans dashed'
      exact ⟨rfl, rfl⟩

theorem Makes.unique (makes : Makes text number result) (makes' : Makes text number result') :
    result = result' := by
  cases makes with
  | command spells nonempty =>
    cases makes' with
    | command spells' =>
      obtain ⟨rfl, rfl⟩ := spells.unique spells'
      rfl
    | empty spells' => exact absurd (spells.unique spells').1 nonempty
  | empty spells =>
    cases makes' with
    | command spells' nonempty => exact absurd (spells'.unique spells).1 nonempty
    | empty => rfl

theorem exists_spells (text : List Char) (number : Nat) :
    ∃ command propagates, Spells text command propagates ∧
      RunLine.ofText? text number =
        if command = [] then none else some ⟨String.ofList command, number, propagates⟩ := by
  simp only [RunLine.ofText?, List.isEmpty_iff]
  split
  next rest dashed => exact ⟨_, _, .dashed dashed, rfl⟩
  next undashed =>
    refine ⟨_, _, .plain fun dashed => ?_, rfl⟩
    obtain ⟨rest, split⟩ := List.head?_eq_some_iff.mp dashed
    exact undashed rest split

theorem makes_outcome (text : List Char) (number : Nat) :
    Makes text number (outcome text number) := by
  obtain ⟨command, propagates, spells, line⟩ := exists_spells text number
  rw [outcome, line]
  by_cases empty : command = []
  · subst empty
    exact .empty spells
  · rw [if_neg empty]
    exact .command spells empty

theorem makes_iff : Makes text number result ↔ result = outcome text number :=
  ⟨fun makes => makes.unique (makes_outcome text number),
    fun same => same ▸ makes_outcome text number⟩

end

/-- What has been found when a group of lines is open. -/
def Progress.within (group : List RunPart) : Progress where
  openRun := if group = [] then none
    else some ⟨withoutBackslash (joinedText group), firstLine group⟩

def Progress.ofOutcomes (outcomes : List (Except Error Item)) : Progress where
  directives := made outcomes
  errors := failed outcomes

theorem continued?_eq (text : List Char) :
    continued? text = if EndsInBackslash text then some text.dropLast else none := by
  simp only [continued?, EndsInBackslash]
  rcases List.eq_nil_or_concat text with rfl | ⟨front, c, rfl⟩
  · rfl
  · simp only [List.concat_eq_append, List.reverse_append, List.reverse_cons, List.reverse_nil,
      List.nil_append, List.singleton_append, List.getLast?_append, List.getLast?_singleton,
      Option.some_or, Option.some.injEq, List.dropLast_concat]
    split
    next rest reversed =>
      cases reversed
      simp
    next other =>
      rw [if_neg]
      rintro rfl
      exact other _ rfl

theorem joinedText_concat (group : List RunPart) (part : RunPart) :
    joinedText (group ++ [part]) = withoutBackslash (joinedText group) ++ part.body := by
  rw [joinedText, List.foldl_append]
  rfl

theorem firstLine_concat (group : List RunPart) (part : RunPart) :
    firstLine (group ++ [part]) = if group = [] then part.line else firstLine group := by
  cases group <;> rfl

theorem opened_within (group : List RunPart) (part : RunPart) :
    (Progress.within group).openRun.getD ⟨[], part.line⟩ =
      ⟨withoutBackslash (joinedText group), firstLine (group ++ [part])⟩ := by
  rw [Progress.within, firstLine_concat]
  by_cases first : group = []
  · subst first
    rfl
  · simp [first]

theorem Progress.addPart_within (group : List RunPart) (part : RunPart) :
    (within group).addPart part =
      if EndsInBackslash (joinedText (group ++ [part])) then within (group ++ [part])
      else ofOutcomes [outcome (joinedText (group ++ [part])) (firstLine (group ++ [part]))] := by
  have joined : withoutBackslash (joinedText group) ++ Text.trim part.rest =
      joinedText (group ++ [part]) := (joinedText_concat group part).symm
  simp only [addPart, addRun, opened_within, joined, continued?_eq]
  by_cases goesOn : EndsInBackslash (joinedText (group ++ [part]))
  · simp [goesOn, within, withoutBackslash]
  · simp only [if_neg goesOn, outcome]
    cases RunLine.ofText? (joinedText (group ++ [part])) (firstLine (group ++ [part])) <;> rfl

theorem Progress.ofOutcomes_cons (outcome : Except Error Item)
    (outcomes : List (Except Error Item)) :
    ofOutcomes (outcome :: outcomes) = (ofOutcomes [outcome]).followedBy (ofOutcomes outcomes) := by
  cases outcome <;> rfl

theorem Progress.followedBy_assoc (first second third : Progress) :
    (first.followedBy second).followedBy third = first.followedBy (second.followedBy third) := by
  simp [followedBy]

theorem Progress.foldl_addPart_within (group parts : List RunPart) :
    parts.foldl addPart (within group) =
      (ofOutcomes ((Joining.byText.groups group parts).closed.map fun group =>
        outcome (joinedText group) (firstLine group))).followedBy
      (within (Joining.byText.groups group parts).left) := by
  induction parts generalizing group with
  | nil => rfl
  | cons part parts ih =>
    rw [List.foldl_cons, addPart_within]
    by_cases goesOn : EndsInBackslash (joinedText (group ++ [part]))
    · rw [if_pos goesOn, Joining.groups_of_goesOn (decide_eq_true goesOn), ih]
    · rw [if_neg goesOn, Joining.groups_of_ends (decide_eq_false goesOn), List.map_cons,
        ofOutcomes_cons (outcome _ _) (List.map _ _), followedBy_assoc, ← ih []]
      -- behind a closed group the reading goes on as it begins, with no command open
      exact foldl_followedBy (fun part => addRun_followedBy part.line part.rest) _ parts

theorem Progress.faults_within (group : List RunPart) :
    (within group).faults = unterminated group := by
  rw [faults, within, unterminated]
  split <;> rfl

/-- What becomes of the closed groups of some lines. -/
def Joining.outcomes (joining : Joining) (parts : List RunPart) : List (Except Error Item) :=
  (joining.groups [] parts).closed.map fun group => outcome (joining.text group) (firstLine group)

theorem Joining.reads_iff {joining : Joining} {source : String} : joining.Reads source ↔
    (progressOf source).directives.filter (·.kind.isRun) =
      made (joining.outcomes (runParts source)) ∧
    (progressOf source).faults.filter (·.cause.isRun) =
      failed (joining.outcomes (runParts source)) ++
        unterminated (joining.groups [] (runParts source)).left := by
  have same (outcomes) : List.Forall₂ (fun group outcome =>
      Makes (joining.text group) (firstLine group) outcome)
        (joining.groups [] (runParts source)).closed outcomes ↔
      joining.outcomes (runParts source) = outcomes := by
    simp only [makes_iff, eq_comm (b := outcome _ _)]
    rw [← List.forall₂_map_left_iff (R := Eq)
      (f := fun group => outcome (joining.text group) (firstLine group)), List.forall₂_eq_eq_eq]
    rfl
  simp only [Reads, same, exists_eq_left']

theorem runs_eq (source : String) : (progressOf source).runs =
    (Progress.ofOutcomes (Joining.byText.outcomes (runParts source))).followedBy
      (Progress.within (Joining.byText.groups [] (runParts source)).left) :=
  (Progress.runs_progressOf source).trans (Progress.foldl_addPart_within [] _)

theorem faults_eq (source : String) : (progressOf source).faults =
    (progressOf source).errors ++
      unterminated (Joining.byText.groups [] (runParts source)).left := by
  have opened : (progressOf source).openRun =
      (Progress.within (Joining.byText.groups [] (runParts source)).left).openRun := by
    change (progressOf source).runs.openRun = _
    rw [runs_eq]
    rfl
  rw [← Progress.faults_within, Progress.faults, opened]
  rfl

/-- The text of the lines joined so far decides, whatever the lines are. -/
theorem byText_reads (source : String) : Joining.byText.Reads source := by
  have runs := runs_eq source
  refine Joining.reads_iff.mpr ⟨?_, ?_⟩
  · exact (congrArg Progress.directives runs).trans (List.append_nil _)
  · rw [← Progress.faults_runs, runs, Progress.faults_followedBy, Progress.faults_within]
    rfl

end SuiteRunner.Directive
