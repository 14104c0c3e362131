import Mathlib.Data.List.Pairwise
import SuiteRunner.Proofs.Directive.FeatureLines
import SuiteRunner.Proofs.Feature.Printing

/-!
# The order of directives

A directive is found when its last line is read, and then it comes behind all that were found
before. For a line that lists expressions this is the line itself; a command over several lines is
found at its last line, although it counts as standing in its first one. So what is listed between
the lines of a command comes out in front of that command, and nothing else is out of order.
-/

namespace SuiteRunner.Directive

open Feature

/-- The line in which a group ends. -/
def lastLine (group : List RunPart) : Nat := (group.getLast?.map RunPart.line).getD 0

theorem lastLine_concat (group : List RunPart) (part : RunPart) :
    lastLine (group ++ [part]) = part.line := by
  simp [lastLine]

/-- The groups of `RUN:` lines in a text that make a command each. -/
def closedGroups (source : String) : List (List RunPart) :=
  (Joining.byText.groups [] (runParts source)).closed

/-- A directive of a text is complete in the line `last`. -/
inductive Completes (source : String) : Item → (last : Nat) → Prop where
  | command {group : List RunPart} {directive : Item} (closed : group ∈ closedGroups source)
      (makes : Makes (joinedText group) (firstLine group) (.ok directive)) :
      Completes source directive (lastLine group)
  | list {line : FeatureLine} {exprs : List Expr} (listed : line ∈ featureLines source)
      (gives : line.Gives (.ok exprs)) : Completes source (line.directive exprs) line.line

/-- A line lists expressions between the first and the last line of a command. -/
def Within (line : FeatureLine) (group : List RunPart) : Prop :=
  firstLine group < line.line ∧ line.line < lastLine group

instance (line : FeatureLine) (group : List RunPart) : Decidable (Within line group) :=
  inferInstanceAs (Decidable (_ ∧ _))

/-! ### What a text is made of -/

/-- What becomes one directive, or one error. -/
inductive Piece where
  | command (group : List RunPart)
  | list (line : FeatureLine)

namespace Piece

def result : Piece → Except Error Item
  | command group => outcome (joinedText group) (firstLine group)
  | list line => line.contribution.map line.directive

def first : Piece → Nat
  | command group => firstLine group
  | list line => line.line

def last : Piece → Nat
  | command group => lastLine group
  | list line => line.line

theorem line_of_result {piece : Piece} {directive : Item}
    (made : piece.result = .ok directive) : directive.line = piece.first := by
  cases piece with
  | command group =>
    rcases makes_iff.mpr made.symm with ⟨-, -⟩
    rfl
  | list line =>
    obtain ⟨exprs, -, rfl⟩ := map_eq_ok made
    rfl

end Piece

/-- The pieces of some lines in the order in which they are complete; a group is open in front. -/
def pieces (group : List RunPart) : List (List Char × Nat) → List Piece
  | [] => []
  | line :: lines =>
    match role? line.1 with
    | none => pieces group lines
    | some (.features kind rest) => .list ⟨kind, rest, line.2⟩ :: pieces group lines
    | some (.run rest) =>
      let group := group ++ [⟨rest, line.2⟩]
      if Joining.byText.goesOn group then pieces group lines else .command group :: pieces [] lines

section

variable {group : List RunPart} {line : List Char × Nat} {lines : List (List Char × Nat)}
  {kind : FeatureKind} {rest : List Char}

theorem pieces_of_none (role : role? line.1 = none) :
    pieces group (line :: lines) = pieces group lines := by
  rw [pieces, role]

theorem pieces_of_features (role : role? line.1 = some (.features kind rest)) :
    pieces group (line :: lines) = .list ⟨kind, rest, line.2⟩ :: pieces group lines := by
  rw [pieces, role]

theorem pieces_of_run (role : role? line.1 = some (.run rest)) :
    pieces group (line :: lines) =
      if Joining.byText.goesOn (group ++ [⟨rest, line.2⟩]) then
        pieces (group ++ [⟨rest, line.2⟩]) lines
      else .command (group ++ [⟨rest, line.2⟩]) :: pieces [] lines := by
  rw [pieces, role]

/-- The commands are the closed groups. -/
theorem command_mem_pieces_iff {closed : List RunPart} :
    .command closed ∈ pieces group lines ↔
      closed ∈ (Joining.byText.groups group (lines.filterMap runPart?)).closed := by
  -- By induction on the lines, with the open group general: only a line of a command changes it,
  -- and a command is one piece where its group closes.
  induction lines generalizing group with
  | nil => simp [pieces, Joining.groups]
  | cons line lines ih =>
    rw [List.filterMap_cons, runPart?]
    cases role : role? line.1 with
    | none => rw [pieces_of_none role, ih]
    | some led =>
      cases led with
      | features kind rest => simp [pieces_of_features role, ih]
      | run rest =>
        rw [pieces_of_run role]
        cases goesOn : Joining.byText.goesOn (group ++ [⟨rest, line.2⟩]) with
        | true => rw [if_pos rfl, ih, Joining.groups_of_goesOn goesOn]
        | false =>
          rw [if_neg Bool.false_ne_true, Joining.groups_of_ends goesOn, List.mem_cons,
            List.mem_cons, ih, Piece.command.injEq]

theorem list_mem_pieces_iff {listed : FeatureLine} :
    .list listed ∈ pieces group lines ↔ listed ∈ lines.filterMap featureLine? := by
  induction lines generalizing group with
  | nil => simp [pieces]
  | cons line lines ih =>
    rw [List.filterMap_cons, featureLine?]
    cases role : role? line.1 with
    | none => rw [pieces_of_none role, ih]
    | some led =>
      cases led with
      | features kind rest => simp [pieces_of_features role, ih]
      | run rest =>
        rw [pieces_of_run role]
        split <;> simp [ih]

/-! ### The reading finds the pieces -/

theorem Progress.addLine_of_features (role : role? line.1 = some (.features kind rest))
    (group : List RunPart) :
    (within group).addLine line =
      (ofOutcomes [Piece.result (.list ⟨kind, rest, line.2⟩)]).followedBy (within group) := by
  rw [addLine, role, Piece.result, FeatureLine.contribution]
  simp only [addEntries]
  cases entries kind.marker.name rest <;>
    simp [within, addDirective, addError, followedBy, ofOutcomes, made, failed, Except.mapError,
      Except.map, Except.toOption, FeatureLine.directive]

theorem Progress.addLine_of_list {text : List Char} {exprs : List Expr}
    (role : role? text = some (.features kind rest))
    (listed : entries kind.marker.name rest = .ok exprs) (progress : Progress) (number : Nat) :
    progress.addLine (text, number) =
      progress.addDirective ((⟨kind, rest, number⟩ : FeatureLine).directive exprs) := by
  rw [addLine, role]
  simp only [addEntries, listed]
  rfl

theorem Progress.foldl_addLine_behind {progress : Progress}
    {outcomes : List (Except Error Item)} {opened : Option OpenRun}
    (found : lines.foldl addLine progress = (ofOutcomes outcomes).followedBy { openRun := opened })
    (outcome : Except Error Item) :
    lines.foldl addLine ((ofOutcomes [outcome]).followedBy progress) =
      (ofOutcomes (outcome :: outcomes)).followedBy { openRun := opened } := by
  have pushed : lines.foldl addLine ((ofOutcomes [outcome]).followedBy progress) =
      (ofOutcomes [outcome]).followedBy (lines.foldl addLine progress) := by
    rw [foldl_followedBy addLine_followedBy, foldl_followedBy addLine_followedBy progress,
      followedBy_assoc]
    rfl
  rw [pushed, found, ofOutcomes_cons outcome outcomes, followedBy_assoc]

/-- What has been found, when all lines are read, is what becomes of the pieces, one behind the
other. -/
theorem Progress.foldl_addLine_within (group : List RunPart) (lines : List (List Char × Nat)) :
    ∃ opened, lines.foldl addLine (within group) =
      (ofOutcomes ((pieces group lines).map Piece.result)).followedBy { openRun := opened } := by
  induction lines generalizing group with
  | nil => exact ⟨_, rfl⟩
  | cons line lines ih =>
    rw [List.foldl_cons]
    cases role : role? line.1 with
    | none =>
      rw [addLine, role, pieces_of_none role]
      exact ih group
    | some led =>
      cases led with
      | features kind rest =>
        -- a command that is open stays open
        obtain ⟨opened, found⟩ := ih group
        rw [addLine_of_features role, pieces_of_features role]
        exact ⟨opened, foldl_addLine_behind found _⟩
      | run rest =>
        have added : (within group).addLine line = (within group).addPart ⟨rest, line.2⟩ := by
          rw [addLine, role]
          rfl
        rw [added, addPart_within, pieces_of_run role]
        by_cases goesOn : EndsInBackslash (joinedText (group ++ [⟨rest, line.2⟩]))
        · have continues : Joining.byText.goesOn (group ++ [⟨rest, line.2⟩]) = true :=
            decide_eq_true goesOn
          rw [if_pos goesOn, if_pos continues]
          exact ih _
        · have ends : Joining.byText.goesOn (group ++ [⟨rest, line.2⟩]) = false :=
            decide_eq_false goesOn
          obtain ⟨opened, found⟩ := ih []
          have closed := foldl_addLine_behind found
            (Piece.result (.command (group ++ [⟨rest, line.2⟩])))
          rw [if_neg goesOn, ends, if_neg Bool.false_ne_true]
          refine ⟨opened, ?_⟩
          rw [← followedBy_nothing (ofOutcomes [_])]
          exact closed

end

/-- The pieces of a text, in the order in which they are complete. -/
def piecesOf (source : String) : List Piece := pieces [] (heard 1 (Text.lines source.toList))

theorem mem_closedGroups_iff {source : String} {group : List RunPart} :
    group ∈ closedGroups source ↔ .command group ∈ piecesOf source :=
  command_mem_pieces_iff.symm

theorem mem_featureLines_iff {source : String} {line : FeatureLine} :
    line ∈ featureLines source ↔ .list line ∈ piecesOf source :=
  list_mem_pieces_iff.symm

theorem forall₂_of_made {outcomes : List (Except Error Item)} (sound : failed outcomes = []) :
    List.Forall₂ (fun outcome directive => outcome = .ok directive) outcomes (made outcomes) := by
  induction outcomes with
  | nil => exact .nil
  | cons outcome outcomes ih =>
    cases outcome with
    | ok directive => exact .cons rfl (ih sound)
    | error e => cases sound

/-- In a reading without errors each piece gives one directive. -/
theorem directives_of_pieces {source : String} {directives : List Item}
    (answer : read source = .ok directives) :
    List.Forall₂ (fun piece directive => Piece.result piece = .ok directive)
      (piecesOf source) directives := by
  obtain ⟨sound, rfl⟩ := read_eq_ok_iff.mp answer
  -- Without an error every piece has made a directive, in order; what is left open adds none.
  have noError : (progressOf source).errors = [] :=
    (List.append_eq_nil_iff.mp ((faults_eq source).symm.trans sound)).1
  obtain ⟨opened, found⟩ := Progress.foldl_addLine_within [] (heard 1 (Text.lines source.toList))
  have found : progressOf source = _ := found
  rw [found] at noError ⊢
  have failures : failed ((piecesOf source).map Piece.result) = [] :=
    (List.append_eq_nil_iff.mp noError).1
  have all := forall₂_of_made failures
  rw [List.forall₂_map_left_iff] at all
  have same : ((Progress.ofOutcomes ((piecesOf source).map Piece.result)).followedBy
      { openRun := opened }).directives = made ((piecesOf source).map Piece.result) :=
    List.append_nil _
  exact same ▸ all

/-! ### Numbers of lines -/

section

variable {group : List RunPart} {lines : List (List Char × Nat)} {piece : Piece}

theorem last_of_mem_pieces (member : piece ∈ pieces group lines) :
    ∃ line ∈ lines, piece.last = line.2 := by
  induction lines generalizing group with
  | nil => cases member
  | cons line lines ih =>
    -- A piece of the lines behind is the case of the induction, whatever group they start with.
    have later {group : List RunPart} (member : piece ∈ pieces group lines) :
        ∃ other ∈ line :: lines, piece.last = other.2 := by
      obtain ⟨other, among, same⟩ := ih member
      exact ⟨other, List.mem_cons_of_mem _ among, same⟩
    cases role : role? line.1 with
    | none => exact later (pieces_of_none role ▸ member)
    | some led =>
      cases led with
      | features kind rest =>
        rw [pieces_of_features role] at member
        rcases List.mem_cons.mp member with rfl | member
        · exact ⟨line, List.mem_cons_self, rfl⟩
        · exact later member
      | run rest =>
        rw [pieces_of_run role] at member
        split at member
        · exact later member
        · rcases List.mem_cons.mp member with rfl | member
          · exact ⟨line, List.mem_cons_self, lastLine_concat _ _⟩
          · exact later member

/-- A piece begins in one of the lines, or it is the command that was open in front of them. -/
theorem first_of_mem_pieces (member : piece ∈ pieces group lines) :
    (∃ line ∈ lines, piece.first = line.2) ∨
      group ≠ [] ∧ ∃ closed, piece = .command closed ∧ firstLine closed = firstLine group := by
  induction lines generalizing group with
  | nil => cases member
  | cons line lines ih =>
    have later (member : piece ∈ pieces group lines) :
        (∃ other ∈ line :: lines, piece.first = other.2) ∨
          group ≠ [] ∧ ∃ closed, piece = .command closed ∧ firstLine closed = firstLine group := by
      rcases ih member with ⟨other, among, same⟩ | opened
      · exact .inl ⟨other, List.mem_cons_of_mem _ among, same⟩
      · exact .inr opened
    cases role : role? line.1 with
    | none => exact later (pieces_of_none role ▸ member)
    | some led =>
      cases led with
      | features kind rest =>
        rw [pieces_of_features role] at member
        rcases List.mem_cons.mp member with rfl | member
        · exact .inl ⟨line, List.mem_cons_self, rfl⟩
        · exact later member
      | run rest =>
        -- the group with this line begins where it did, or here
        have begins {closed : List RunPart}
            (same : firstLine closed = firstLine (group ++ [⟨rest, line.2⟩])) :
            (∃ other ∈ line :: lines, (Piece.command closed).first = other.2) ∨
              group ≠ [] ∧ ∃ other, Piece.command closed = .command other ∧
                firstLine other = firstLine group := by
          rw [firstLine_concat] at same
          split at same
          · exact .inl ⟨line, List.mem_cons_self, same⟩
          next opened => exact .inr ⟨opened, closed, rfl, same⟩
        rw [pieces_of_run role] at member
        split at member
        · rcases ih member with ⟨other, among, same⟩ | ⟨-, closed, rfl, same⟩
          · exact .inl ⟨other, List.mem_cons_of_mem _ among, same⟩
          · exact begins same
        · rcases List.mem_cons.mp member with rfl | member
          · exact begins rfl
          · rcases ih member with ⟨other, among, same⟩ | ⟨nonempty, -⟩
            · exact .inl ⟨other, List.mem_cons_of_mem _ among, same⟩
            · exact absurd rfl nonempty

/-- The later piece ends behind the earlier one, and it begins behind its beginning too, unless it
is a command around a list. -/
structure ComesBefore (earlier later : Piece) : Prop where
  ends : earlier.last < later.last
  begins : earlier.first < later.first ∨
    ∃ line group, earlier = .list line ∧ later = .command group ∧ Within line group

theorem pieces_comesBefore (increase : lines.Pairwise (·.2 < ·.2))
    (behind : group ≠ [] → ∀ line ∈ lines, firstLine group < line.2) :
    (pieces group lines).Pairwise ComesBefore := by
  induction lines generalizing group with
  | nil => exact .nil
  | cons line lines ih =>
    obtain ⟨ahead, increase⟩ := List.pairwise_cons.mp increase
    have behind' : group ≠ [] → ∀ line ∈ lines, firstLine group < line.2 :=
      fun opened other member => behind opened other (List.mem_cons_of_mem _ member)
    -- whatever comes later ends in a later line
    have ends {group : List RunPart} {later : Piece} (member : later ∈ pieces group lines) :
        line.2 < later.last := by
      obtain ⟨other, among, same⟩ := last_of_mem_pieces member
      rw [same]
      exact ahead other among
    cases role : role? line.1 with
    | none =>
      rw [pieces_of_none role]
      exact ih increase behind'
    | some led =>
      cases led with
      | features kind rest =>
        rw [pieces_of_features role]
        refine List.pairwise_cons.mpr ⟨fun later member => ⟨ends member, ?_⟩, ih increase behind'⟩
        rcases first_of_mem_pieces member with ⟨other, among, same⟩ | ⟨opened, closed, rfl, same⟩
        · rw [same]
          exact .inl (ahead other among)
        -- this is the command that is open around the list
        · refine .inr ⟨_, closed, rfl, rfl, ?_, ends member⟩
          rw [same]
          exact behind opened line List.mem_cons_self
      | run rest =>
        -- the group with this line lies in front of all lines that are left
        have first : firstLine (group ++ [⟨rest, line.2⟩]) ≤ line.2 := by
          rw [firstLine_concat]
          split
          · exact Nat.le_refl _
          next opened => exact Nat.le_of_lt (behind opened line List.mem_cons_self)
        rw [pieces_of_run role]
        split
        · refine ih increase fun _ other member => ?_
          exact Nat.lt_of_le_of_lt first (ahead other member)
        · refine List.pairwise_cons.mpr ⟨fun later member => ⟨?_, .inl ?_⟩,
            ih increase (absurd rfl)⟩
          · rw [Piece.last, lastLine_concat]
            exact ends member
          · rcases first_of_mem_pieces member with ⟨other, among, same⟩ | ⟨nonempty, -⟩
            · rw [same]
              exact Nat.lt_of_le_of_lt first (ahead other among)
            · exact absurd rfl nonempty

end

theorem heard_increase (number : Nat) (texts : List (List Char)) :
    (heard number texts).Pairwise (·.2 < ·.2) := by
  induction texts generalizing number with
  | nil => exact .nil
  | cons text texts ih =>
    by_cases stops : Stops text
    · rw [heard_of_stops stops]
      exact .nil
    · rw [heard_cons stops]
      refine List.pairwise_cons.mpr ⟨fun line member => ?_, ih (number + 1)⟩
      exact (heard_numbers member).1

theorem piecesOf_comesBefore (source : String) : (piecesOf source).Pairwise ComesBefore :=
  pieces_comesBefore (heard_increase 1 _) (absurd rfl)

theorem before_or_behind {α : Type} {R : α → α → Prop} {items : List α} {a b : α}
    (ordered : items.Pairwise R) (member : a ∈ items) (member' : b ∈ items) (different : a ≠ b) :
    R a b ∨ R b a := by
  have symmetric : Std.Symm fun a b => R a b ∨ R b a := ⟨fun _ _ => Or.symm⟩
  have either : items.Pairwise fun a b => R a b ∨ R b a := ordered.imp Or.inl
  exact either.forall member member' different

/-- Pieces begin in the order in which they end, unless one is a list in a command. -/
theorem first_increase_iff (source : String) :
    ((piecesOf source).map Piece.first).Pairwise (· < ·) ↔
      ∀ group ∈ closedGroups source, ∀ line ∈ featureLines source, ¬ Within line group := by
  have ordered := piecesOf_comesBefore source
  rw [List.pairwise_map]
  constructor
  · intro increase group closed line listed ⟨begins, ends⟩
    have both := List.pairwise_and_iff.mpr ⟨ordered, increase⟩
    -- whichever of the two comes first, the other one would have to lie behind it
    rcases before_or_behind both (mem_closedGroups_iff.mp closed)
      (mem_featureLines_iff.mp listed) (by simp) with ⟨before, -⟩ | ⟨-, earlier⟩
    · exact Nat.lt_asymm ends before.ends
    · exact Nat.lt_asymm begins earlier
  · intro none
    refine ordered.imp_of_mem fun {earlier later} member member' before => ?_
    rcases before.begins with begins | ⟨line, group, rfl, rfl, within⟩
    · exact begins
    · exact absurd within (none group (mem_closedGroups_iff.mpr member') line
        (mem_featureLines_iff.mpr member))

theorem completes_of_result {source : String} {piece : Piece} {directive : Item}
    (member : piece ∈ piecesOf source) (made : piece.result = .ok directive) :
    Completes source directive piece.last := by
  cases piece with
  | command group => exact .command (mem_closedGroups_iff.mpr member) (makes_iff.mpr made.symm)
  | list line =>
    obtain ⟨exprs, given, rfl⟩ := map_eq_ok made
    exact .list (mem_featureLines_iff.mpr member) (FeatureLine.gives_iff.mpr given)

/-- Directives come out in the order of the lines in which they are complete. So their own lines,
for a command the first of its lines, increase if and only if no line between the first and the
last line of a command lists expressions; a list that does stand there comes out too early. -/
theorem directives_increase_iff {source : String} {directives : List Item}
    (answer : read source = .ok directives) :
    (∃ lasts, List.Forall₂ (Completes source) directives lasts ∧ lasts.Pairwise (· < ·)) ∧
    ((directives.map Item.line).Pairwise (· < ·) ↔
      ∀ group ∈ closedGroups source, ∀ line ∈ featureLines source, ¬ Within line group) := by
  have given := directives_of_pieces answer
  constructor
  -- The pieces are compared instead of the directives: each piece gives its directive and keeps its
  -- own lines.
  · have among := (List.forall₂_and_left _ _).mpr ⟨fun _ member => member, given⟩
    have complete : List.Forall₂ (fun piece directive => Completes source directive piece.last)
        (piecesOf source) directives :=
      among.imp fun _ _ both => completes_of_result both.1 both.2
    refine ⟨(piecesOf source).map Piece.last, ?_, ?_⟩
    · exact List.forall₂_map_right_iff.mpr complete.flip
    · exact List.pairwise_map.mpr ((piecesOf_comesBefore source).imp ComesBefore.ends)
  · have lines : (piecesOf source).map Piece.first = directives.map Item.line := by
      rw [← List.forall₂_eq_eq_eq, List.forall₂_map_left_iff, List.forall₂_map_right_iff]
      exact given.imp fun _ _ made => (Piece.line_of_result made).symm
    rw [← lines, first_increase_iff]

theorem accepts_name {item : List Char} {name : String} (nonempty : name.toList ≠ [])
    (plain : name.toList.all isNameChar = true) (notAlways : name ≠ "always")
    (trimmed : Text.trim item = name.toList) : Accepts item (.feature name) := by
  have readable : (Expr.feature name).Readable :=
    ⟨⟨nonempty, List.all_eq_true.mp plain⟩, notAlways⟩
  refine ⟨trimmed ▸ nonempty, ?_⟩
  rw [trimmed, String.ofList_toList]
  exact readable.parse_text

/-- An accepted text in which one list stands between two commands and none in one. -/
theorem list_between_commands_increases :
    let source := "RUN: a \\\n\nRUN: | b\n// REQUIRES: x\nRUN: c\n"
    let directives : List Item :=
      [⟨.run ⟨"a | b", 1, true⟩, 1⟩, ⟨.requires [.feature "x"], 4⟩, ⟨.run ⟨"c", 5, true⟩, 5⟩]
    read source = .ok directives ∧
      (∀ group ∈ closedGroups source, ∀ line ∈ featureLines source, ¬ Within line group) ∧
      (directives.map Item.line).Pairwise (· < ·) := by
  intro source directives
  have lines : heard 1 (Text.lines source.toList) =
      [("RUN: a \\".toList, 1), ([], 2), ("RUN: | b".toList, 3), ("// REQUIRES: x".toList, 4),
        ("RUN: c".toList, 5)] := by decide +kernel
  have role : role? "// REQUIRES: x".toList = some (.features .requires " x".toList) := by
    decide +kernel
  have accepted : Accepts " x".toList (.feature "x") :=
    accepts_name (by decide) (by decide) (by decide) (by decide)
  have listed : entries "REQUIRES" " x".toList = .ok [.feature "x"] :=
    entries_eq_ok_iff.mpr (.cons accepted .nil)
  have answer : read source = .ok directives := by
    rw [read_eq_ok_iff, progressOf, lines]
    simp only [List.foldl_cons, Progress.addLine_of_list role listed]
    decide +kernel
  have apart : ∀ group ∈ closedGroups source, ∀ line ∈ featureLines source,
      ¬ Within line group := by decide +kernel
  exact ⟨answer, apart, (directives_increase_iff answer).2.mpr apart⟩

/-- A list between the two lines of a command comes out in front of the command, in whose first
line the command counts as standing. -/
theorem list_in_command_comes_first :
    let source := "RUN: a \\\nREQUIRES: x\nRUN: b\n"
    let directives : List Item :=
      [⟨.requires [.feature "x"], 2⟩, ⟨.run ⟨"a b", 1, true⟩, 1⟩]
    read source = .ok directives ∧ ¬ (directives.map Item.line).Pairwise (· < ·) := by
  intro source directives
  have lines : heard 1 (Text.lines source.toList) =
      [("RUN: a \\".toList, 1), ("REQUIRES: x".toList, 2), ("RUN: b".toList, 3)] := by
    decide +kernel
  have role : role? "REQUIRES: x".toList = some (.features .requires " x".toList) := by
    decide +kernel
  have accepted : Accepts " x".toList (.feature "x") :=
    accepts_name (by decide) (by decide) (by decide) (by decide)
  have listed : entries "REQUIRES" " x".toList = .ok [.feature "x"] :=
    entries_eq_ok_iff.mpr (.cons accepted .nil)
  have answer : read source = .ok directives := by
    rw [read_eq_ok_iff, progressOf, lines]
    simp only [List.foldl_cons, Progress.addLine_of_list role listed]
    decide +kernel
  exact ⟨answer, by decide⟩

end SuiteRunner.Directive
