import SuiteRunner.Directive.Lexer
import SuiteRunner.Proofs.Directive.Markers

/-!
# Reading line by line

Reading takes the lines in front of the first one that stops it, each with its number. What a
line adds to what was found before depends on nothing of that but the command that is still open,
and the numbers of lines are only handed on.
-/

namespace SuiteRunner.Directive

open Feature

/-! ### What lines are for -/

/-- The directives that list expressions. -/
inductive FeatureKind where
  | requires
  | xfail
  | unsupported
  deriving DecidableEq, Repr

namespace FeatureKind

def marker : FeatureKind → Marker
  | requires => .requires
  | xfail => .xfail
  | unsupported => .unsupported

def kind : FeatureKind → List Expr → Kind
  | requires => .requires
  | xfail => .xfail
  | unsupported => .unsupported

end FeatureKind

/-- What a line is led by, if that is a directive, and the text behind the marker. -/
inductive Role where
  | run (rest : List Char)
  | features (kind : FeatureKind) (rest : List Char)
  deriving DecidableEq, Repr

def role? (text : List Char) : Option Role :=
  match findMarker text with
  | none | some (.stop, _) => none
  | some (.run, rest) => some (.run rest)
  | some (.requires, rest) => some (.features .requires rest)
  | some (.xfail, rest) => some (.features .xfail rest)
  | some (.unsupported, rest) => some (.features .unsupported rest)

theorem role?_of_silent {text : List Char} (silent : Silent text) : role? text = none := by
  rw [role?, findMarker_eq_none_iff.mpr silent]

/-- What one line adds. -/
def Progress.addLine (progress : Progress) (line : List Char × Nat) : Progress :=
  match role? line.1 with
  | none => progress
  | some (.run rest) => progress.addRun line.2 rest
  | some (.features kind rest) => progress.addEntries kind.marker kind.kind line.2 rest

theorem Progress.addLine_of_silent {line : List Char × Nat} (progress : Progress)
    (silent : Silent line.1) : progress.addLine line = progress := by
  rw [addLine, role?_of_silent silent]

/-! ### The lines that are read -/

section

variable {number : Nat} {text : List Char} {texts : List (List Char)}

/-- The lines in front of the first one that stops the reading, numbered from `number` on. -/
def heard (number : Nat) (texts : List (List Char)) : List (List Char × Nat) :=
  (texts.takeWhile fun text => !decide (Stops text)).zipIdx number

theorem heard_of_stops (stops : Stops text) : heard number (text :: texts) = [] := by
  rw [heard, List.takeWhile_cons_of_neg (by simp [stops]), List.zipIdx_nil]

theorem heard_cons (goesOn : ¬ Stops text) :
    heard number (text :: texts) = (text, number) :: heard (number + 1) texts := by
  rw [heard, List.takeWhile_cons_of_pos (by simp [goesOn]), List.zipIdx_cons, heard]

/-- Lines are read behind other lines, unless one of these stops the reading. -/
theorem heard_append (texts more : List (List Char)) :
    heard number (texts ++ more) = heard number texts ++
      if ∃ text ∈ texts, Stops text then [] else heard (number + texts.length) more := by
  induction texts generalizing number with
  | nil => simp [heard]
  | cons text texts ih =>
    by_cases stops : Stops text
    · simp [heard_of_stops stops, stops]
    · rw [List.cons_append, heard_cons stops, heard_cons stops, ih, List.length_cons,
        Nat.add_assoc, Nat.add_comm 1]
      simp [stops]

/-- Counting from another number on gives other numbers and the same lines. -/
theorem heard_add (texts : List (List Char)) (number offset : Nat) :
    heard (number + offset) texts = (heard number texts).map (Prod.map id (· + offset)) := by
  rw [heard, heard, List.map_snd_add_zipIdx_eq_zipIdx, Nat.add_comm]

theorem heard_numbers {line : List Char × Nat} (member : line ∈ heard number texts) :
    number ≤ line.2 ∧ line.2 < number + texts.length := by
  obtain ⟨above, below, -⟩ := List.mem_zipIdx member
  have kept : (texts.takeWhile fun text => !decide (Stops text)).length ≤ texts.length :=
    (List.takeWhile_sublist _).length_le
  exact ⟨above, by omega⟩

theorem readLines_eq_foldl (number : Nat) (progress : Progress) (texts : List (List Char)) :
    readLines number progress texts = (heard number texts).foldl Progress.addLine progress := by
  induction texts generalizing number progress with
  | nil => rfl
  | cons text texts ih =>
    by_cases stops : Stops text
    · obtain ⟨rest, led, blank⟩ := stops_iff.mp stops
      rw [heard_of_stops stops, readLines, led]
      simp [blank]
    · rw [heard_cons stops, List.foldl_cons, ← ih, readLines, Progress.addLine, role?]
      have goesOn : ∀ rest, findMarker text = some (.stop, rest) → Text.trim rest ≠ [] :=
        fun rest led blank => stops (stops_iff.mpr ⟨rest, led, blank⟩)
      split <;> simp_all [FeatureKind.marker, FeatureKind.kind]

end

/-- All that was found by reading a text. -/
def progressOf (source : String) : Progress :=
  (heard 1 (Text.lines source.toList)).foldl Progress.addLine {}

/-- What is behind a line end is read behind the lines in front of it. -/
theorem progressOf_append {a : String} (ended : Text.EndsLine a.toList) (b : String) :
    progressOf (a ++ b) =
      (if ∃ line ∈ Text.lines a.toList, Stops line then []
        else heard (1 + a.toList.count '\n') (Text.lines b.toList)).foldl Progress.addLine
        (progressOf a) := by
  rw [progressOf, String.toList_append, ended.ofLines.lines_append, heard_append,
    ended.ofLines.length_lines, List.foldl_append, ← progressOf]

theorem read_eq_finish (source : String) : read source = (progressOf source).finish := by
  rw [read, readLines_eq_foldl, progressOf]

namespace Progress

variable {progress found : Progress}

/-! ### One finding behind another -/

/-- What was found first, and what was found from there on. -/
def followedBy (progress found : Progress) : Progress :=
  ⟨progress.directives ++ found.directives, progress.errors ++ found.errors, found.openRun⟩

theorem followedBy_nothing (progress : Progress) :
    progress.followedBy { openRun := progress.openRun } = progress := by
  simp [followedBy]

theorem addDirective_followedBy (directive : Item) :
    (progress.followedBy found).addDirective directive =
      progress.followedBy (found.addDirective directive) := by
  simp [followedBy, addDirective]

theorem addError_followedBy (e : Error) :
    (progress.followedBy found).addError e = progress.followedBy (found.addError e) := by
  simp [followedBy, addError]

theorem addRun_followedBy (number : Nat) (rest : List Char) :
    (progress.followedBy found).addRun number rest =
      progress.followedBy (found.addRun number rest) := by
  simp only [addRun]
  have same : (progress.followedBy found).openRun = found.openRun := rfl
  rw [same]
  split
  · rfl
  · have closed : { progress.followedBy found with openRun := none } =
        progress.followedBy { found with openRun := none } := rfl
    rw [closed]
    split
    · exact addDirective_followedBy _
    · exact addError_followedBy _

theorem addEntries_followedBy (marker : Marker) (kind : List Expr → Kind) (number : Nat)
    (rest : List Char) :
    (progress.followedBy found).addEntries marker kind number rest =
      progress.followedBy (found.addEntries marker kind number rest) := by
  simp only [addEntries]
  split
  · exact addDirective_followedBy _
  · exact addError_followedBy _

theorem addLine_followedBy (line : List Char × Nat) :
    (progress.followedBy found).addLine line = progress.followedBy (found.addLine line) := by
  simp only [addLine]
  split
  · rfl
  · exact addRun_followedBy _ _
  · exact addEntries_followedBy _ _ _ _

/-- Steps that only add to what was found, whatever it is, do so one after the other. -/
theorem foldl_followedBy {α : Type} {step : Progress → α → Progress}
    (adds : ∀ {progress found : Progress} (item : α),
      step (progress.followedBy found) item = progress.followedBy (step found item))
    (progress : Progress) (items : List α) :
    items.foldl step progress =
      progress.followedBy (items.foldl step { openRun := progress.openRun }) := by
  have pushed : ∀ found : Progress, items.foldl step (progress.followedBy found) =
      progress.followedBy (items.foldl step found) := by
    induction items with
    | nil => exact fun found => rfl
    | cons item items ih =>
      intro found
      rw [List.foldl_cons, List.foldl_cons, adds, ih]
  rw [← pushed, followedBy_nothing]

/-! ### The end of the reading -/

/-- All errors, the one for a command that is still open included. -/
def faults (progress : Progress) : List Error :=
  progress.errors ++
    (progress.openRun.map fun opened => ⟨opened.line, .unterminatedContinuation⟩).toList

theorem faults_followedBy (progress found : Progress) :
    (progress.followedBy found).faults = progress.errors ++ found.faults :=
  List.append_assoc _ _ _

theorem faults_of_closed (closed : progress.openRun = none) :
    progress.faults = progress.errors := by
  simp [faults, closed]

theorem finish_of_sound (sound : progress.faults = []) :
    progress.finish = .ok progress.directives := by
  rw [faults] at sound
  rw [finish]
  cases opened : progress.openRun <;> simp_all

theorem finish_of_faulty (faulty : progress.faults ≠ []) :
    progress.finish = .error progress.faults := by
  rw [faults] at faulty
  rw [finish, faults]
  cases opened : progress.openRun <;> simp_all

end Progress

theorem read_eq (source : String) : read source =
    if (progressOf source).faults = [] then .ok (progressOf source).directives
    else .error (progressOf source).faults := by
  rw [read_eq_finish]
  split
  next sound => exact Progress.finish_of_sound sound
  next faulty => exact Progress.finish_of_faulty faulty

theorem read_eq_ok_iff {source : String} {directives : List Item} :
    read source = .ok directives ↔
      (progressOf source).faults = [] ∧ (progressOf source).directives = directives := by
  rw [read_eq]
  split <;> simp_all

theorem read_eq_error_iff {source : String} {errors : List Error} :
    read source = .error errors ↔ (progressOf source).faults = errors ∧ errors ≠ [] := by
  rw [read_eq]
  split
  next sound => exact iff_of_false nofun fun ⟨same, faulty⟩ => faulty (same.symm.trans sound)
  next faulty =>
    rw [Except.error.injEq]
    exact ⟨fun same => ⟨same, same ▸ faulty⟩, And.left⟩

/-! ### Numbers of lines -/

section

variable (f : Nat → Nat)

def Kind.renumber : Kind → Kind
  | .run line => .run { line with line := f line.line }
  | kind => kind

def Item.renumber (directive : Item) : Item :=
  ⟨directive.kind.renumber f, f directive.line⟩

def Error.renumber (e : Error) : Error := { e with line := f e.line }

/-- What was found, with other numbers for the lines. -/
def Progress.renumber (progress : Progress) : Progress where
  directives := progress.directives.map (Item.renumber f)
  errors := progress.errors.map (Error.renumber f)
  openRun := progress.openRun.map fun opened => { opened with line := f opened.line }

/-- The answer of a reading, with other numbers for the lines. -/
def renumbered :
    Except (List Error) (List Item) → Except (List Error) (List Item)
  | .ok directives => .ok (directives.map (Item.renumber f))
  | .error errors => .error (errors.map (Error.renumber f))

theorem RunLine.ofText?_number (text : List Char) (number : Nat) :
    RunLine.ofText? text (f number) =
      (RunLine.ofText? text number).map fun line => { line with line := f line.line } := by
  simp only [ofText?]
  split <;> split <;> rfl

namespace Progress

theorem addRun_renumber (progress : Progress) (number : Nat) (rest : List Char) :
    (progress.renumber f).addRun (f number) rest = (progress.addRun number rest).renumber f := by
  have opened : (progress.renumber f).openRun.getD ⟨[], f number⟩ =
      { progress.openRun.getD ⟨[], number⟩ with
        line := f (progress.openRun.getD ⟨[], number⟩).line } := by
    cases h : progress.openRun <;> simp [renumber, h]
  simp only [addRun, opened]
  split
  · rfl
  · rw [RunLine.ofText?_number]
    cases RunLine.ofText? _ (progress.openRun.getD ⟨[], number⟩).line with
    | none => simp [renumber, addError, Error.renumber]
    | some line => simp [renumber, addDirective, Item.renumber, Kind.renumber]

theorem addEntries_renumber (progress : Progress) (kind : FeatureKind) (number : Nat)
    (rest : List Char) :
    (progress.renumber f).addEntries kind.marker kind.kind (f number) rest =
      (progress.addEntries kind.marker kind.kind number rest).renumber f := by
  simp only [addEntries]
  split
  · cases kind <;>
      simp [renumber, addDirective, Item.renumber, FeatureKind.kind, Kind.renumber]
  · simp [renumber, addError, Error.renumber]

theorem addLine_renumber (progress : Progress) (line : List Char × Nat) :
    (progress.renumber f).addLine (line.map id f) = (progress.addLine line).renumber f := by
  simp only [addLine, Prod.map_fst, Prod.map_snd, id]
  split
  · rfl
  · exact addRun_renumber f progress _ _
  · exact addEntries_renumber f progress _ _ _

theorem foldl_addLine_renumber (progress : Progress) (lines : List (List Char × Nat)) :
    (lines.map (Prod.map id f)).foldl addLine (progress.renumber f) =
      (lines.foldl addLine progress).renumber f := by
  induction lines generalizing progress with
  | nil => rfl
  | cons line lines ih => rw [List.map_cons, List.foldl_cons, List.foldl_cons, addLine_renumber, ih]

theorem faults_renumber (progress : Progress) :
    (progress.renumber f).faults = progress.faults.map (Error.renumber f) := by
  cases opened : progress.openRun <;> simp [faults, renumber, opened, Error.renumber]

theorem finish_renumber (progress : Progress) :
    (progress.renumber f).finish = renumbered f progress.finish := by
  have faults := progress.faults_renumber f
  by_cases sound : progress.faults = []
  · rw [sound, List.map_nil] at faults
    rw [finish_of_sound sound, finish_of_sound faults]
    rfl
  · have faulty : (progress.renumber f).faults ≠ [] := by
      rw [faults]
      exact mt List.map_eq_nil_iff.mp sound
    rw [finish_of_faulty sound, finish_of_faulty faulty, faults]
    rfl

end Progress

end

end SuiteRunner.Directive
