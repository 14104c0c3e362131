import SuiteRunner.Proofs.Run.Expectations

/-!
# Tools that are missing

A tool or library is looked up if its placeholder occurs in some run-line, as a piece of text. The
reading of the run-line may make something else of that text. Its percent sign may be the second of
a doubled one, another rule may take its beginning or what is in front of it as well, or a
malformed placeholder may end the reading before it. If none of this is so, then the rule of the
tool is applied to it.
-/

namespace SuiteRunner.Substitution

/-! ### What becomes of an occurrence -/

/-- What becomes of a text, for which there is a rule at some place of the list, where `passed`
stands in front of it. -/
inductive Fate (patterns : List String) (place : Nat) (text passed : List Char) : Prop where
  | applied (applied : AppliedAt patterns place text passed)
  /-- Its first character is the second percent sign of a doubled one. -/
  | escaped {before rest : List Char} (behind : passed = before ++ ['%'])
      (reached : Reaches patterns text before ('%' :: '%' :: rest))
  /-- An earlier rule takes it from its beginning. -/
  | taken {other : Nat} {pattern : String} {rest : List Char} (earlier : other < place)
      (reached : Reaches patterns text passed rest)
      (stands : Stands patterns (.occurrence other pattern) rest)
  /-- A rule that is applied further to the left takes its first character too. -/
  | covered {other : Nat} {pattern : String} {before inside rest : List Char}
      (behind : passed = before ++ inside) (reached : Reaches patterns text before rest)
      (stands : Stands patterns (.occurrence other pattern) rest)
      (reaches : 0 < inside.length ∧ inside.length < pattern.toList.length)
  /-- The reading has ended at a malformed placeholder. -/
  | unread {earlier body : List Char} (malformed : MalformedAt patterns text earlier body)
      (before : earlier <+: passed)

/-- Every character of a text belongs to a segment, at the beginning of which the reading stands. -/
theorem exists_covering (patterns : List String) (passed : List Char) {rest : List Char}
    (more : rest ≠ []) :
    ∃ segment before inside left, passed = before ++ inside ∧
      inside.length < segment.text.length ∧ inside ++ rest = segment.text ++ left ∧
      Reaches patterns (passed ++ rest) before (segment.text ++ left) ∧
      Stands patterns segment (segment.text ++ left) := by
  obtain ⟨segments, segmented⟩ := exists_segmented patterns (passed ++ rest)
  generalize whole : passed ++ rest = text at segmented
  -- Either the first segment is longer than what has been passed, or it is part of that.
  induction segmented generalizing passed with
  | done => exact absurd (List.append_eq_nil_iff.mp whole).2 more
  | @next segment text segments stands segmented ih =>
    by_cases short : passed.length < segment.text.length
    · exact ⟨segment, [], passed, text, rfl, short, whole, .here _, stands⟩
    · obtain ⟨passed', rfl⟩ : segment.text <+: passed :=
        List.prefix_of_prefix_length_le ⟨text, rfl⟩ ⟨rest, whole⟩ (Nat.le_of_not_lt short)
      rw [List.append_assoc] at whole
      obtain ⟨covering, before, inside, left, rfl, inner, split, reached, stands'⟩ :=
        ih _ (List.append_cancel_left whole)
      exact ⟨covering, segment.text ++ before, inside, left, (List.append_assoc ..).symm, inner,
        split, .behind stands reached, stands'⟩

theorem placeholder_toList (name : String) :
    (placeholder name).toList = '%' :: '\x7b' :: (name.toList ++ ['\x7d']) := by
  simp [placeholder]

theorem begins_placeholder (name : String) (behind : List Char) :
    Begins (placeholder name) ((placeholder name).toList ++ behind) := by
  refine ⟨fun empty => ?_, List.prefix_append _ _⟩
  have signs := placeholder_toList name
  rw [empty] at signs
  cases signs

/-- If the reading stands before a placeholder for which there is a rule, then the rule is applied,
or one before it is, or the reading has ended already. -/
theorem fate_of_reached {patterns : List String} {place : Nat} {name : String}
    (here : patterns[place]? = some (placeholder name)) {text passed behind : List Char}
    {segment : Segment}
    (reached : Reaches patterns text passed ((placeholder name).toList ++ behind))
    (stands : Stands patterns segment ((placeholder name).toList ++ behind)) :
    Fate patterns place text passed := by
  -- The text at the placeholder is generalized to see what kind of segment stands there.
  have begins := begins_placeholder name behind
  have member := List.mem_of_getElem? here
  generalize split : (placeholder name).toList ++ behind = rest at reached stands begins
  cases stands with
  | percent =>
    rw [placeholder_toList] at split
    cases split
  | copied single none => exact absurd begins (none _ member)
  | @occurrence other pattern _ single here' begins' first =>
    have stands := Stands.occurrence single here' begins' first
    -- The rule that is applied here comes before the one of the name, or is it, or comes behind it,
    -- where it would not have been the first.
    rcases Nat.lt_trichotomy other place with earlier | rfl | later
    · exact .taken earlier reached stands
    · by_cases broken : ∃ earlier body, MalformedAt patterns text earlier body ∧ earlier <+: passed
      · obtain ⟨earlier, body, malformed, before⟩ := broken
        exact .unread malformed before
      · exact .applied ⟨⟨pattern, rest, reached, stands⟩, fun earlier body malformed before =>
          broken ⟨earlier, body, malformed, before⟩⟩
    · exact absurd begins (first place later _ here)

/-- One of these becomes of every occurrence of a placeholder for which there is a rule. -/
theorem fate_of_placeholder {patterns : List String} {place : Nat} {name : String}
    (here : patterns[place]? = some (placeholder name)) (passed behind : List Char) :
    Fate patterns place (passed ++ ((placeholder name).toList ++ behind)) passed := by
  have more : (placeholder name).toList ++ behind ≠ [] := by simp [placeholder_toList]
  obtain ⟨segment, before, inside, left, split, inner, whole, reached, stands⟩ :=
    exists_covering patterns passed more
  by_cases empty : inside = []
  · subst empty
    rw [List.append_nil] at split
    rw [List.nil_append] at whole
    subst split
    rw [← whole] at reached stands
    exact fate_of_reached here reached stands
  · have positive := List.length_pos_iff.mpr empty
    cases segment with
    | percent =>
      -- Only one of the two percent signs can be in front of the placeholder.
      obtain ⟨c, rfl⟩ : ∃ c, inside = [c] :=
        List.length_eq_one_iff.mp (Nat.le_antisymm (Nat.le_of_lt_succ inner) positive)
      obtain rfl : c = '%' := (List.cons.inj whole).1
      exact .escaped split reached
    | occurrence other pattern => exact .covered split reached stands ⟨positive, inner⟩
    | copied c =>
      exact absurd inner (Nat.not_lt.mpr positive)

end SuiteRunner.Substitution

namespace SuiteRunner.Run

open Config Directive Discovery Files Substitution

/-! ### What is missing -/

/-- A tool or library of a configuration that some run-line mentions is not found. Its rule has this
place among those of all tools and then all libraries. -/
inductive Lacks (tree : FileTree) (config : EffectiveConfig) (lines : List RunLine) :
    (place : Nat) → Tool.NotFound → Prop where
  | tool {place : Nat} {name : String} {missing : Tool.NotFound}
      (configured : config.tools[place]? = some name) (mentioned : Mentioned lines name)
      (absent : config.places.tool tree name = .error missing) :
      Lacks tree config lines place missing
  | library {place : Nat} {name : String} {missing : Tool.NotFound}
      (configured : config.libraries[place]? = some name) (mentioned : Mentioned lines name)
      (absent : config.places.library tree name = .error missing) :
      Lacks tree config lines (config.tools.length + place) missing

theorem placeholderRules_eq_error {find : String → Except Tool.NotFound Path} {names : List String}
    {missing : Tool.NotFound} (failed : placeholderRules find names = .error missing) :
    ∃ name ∈ names, find name = .error missing := by
  obtain ⟨before, name, after, rfl, -, failed⟩ := mapM_eq_error_iff.mp failed
  refine ⟨name, by simp, ?_⟩
  cases found : find name with
  | error cause =>
    rw [found] at failed
    cases failed
    rfl
  | ok path =>
    rw [found] at failed
    cases failed

theorem exists_missing_place {find : String → Except Tool.NotFound Path} {names : List String}
    {lines : List RunLine} {missing : Tool.NotFound}
    (failed : placeholderRules find (names.filter (mentions lines)) = .error missing) :
    ∃ (place : Nat) (name : String), names[place]? = some name ∧ Mentioned lines name ∧
      find name = .error missing := by
  obtain ⟨name, member, absent⟩ := placeholderRules_eq_error failed
  obtain ⟨member, mentioned⟩ := mem_filter_mentions_iff.mp member
  obtain ⟨place, configured⟩ := List.getElem?_of_mem member
  exact ⟨place, name, configured, mentioned, absent⟩

theorem lacks_of_resolvedRules {tree : FileTree} {config : EffectiveConfig} {lines : List RunLine}
    {missing : Tool.NotFound}
    (failed : resolvedRules tree config (mentions lines) = .error missing) :
    ∃ place, Lacks tree config lines place missing := by
  -- The tools are looked for before the libraries, and the first table that fails gives the answer.
  unfold resolvedRules at failed
  cases tools : placeholderRules (config.places.tool tree)
      (config.tools.filter (mentions lines)) with
  | error cause =>
    rw [tools] at failed
    cases failed
    obtain ⟨place, name, configured, mentioned, absent⟩ := exists_missing_place tools
    exact ⟨place, .tool configured mentioned absent⟩
  | ok toolRules =>
    rw [tools] at failed
    cases libraries : placeholderRules (config.places.library tree)
        (config.libraries.filter (mentions lines)) with
    | error cause =>
      rw [libraries] at failed
      cases failed
      obtain ⟨place, name, configured, mentioned, absent⟩ := exists_missing_place libraries
      exact ⟨_, .library configured mentioned absent⟩
    | ok libraryRules =>
      rw [libraries] at failed
      cases failed

theorem resolvedRules_of_prepare {tree : FileTree} {override : Option UInt64} {test : TestCase}
    {lines : List RunLine} {missing : Tool.NotFound}
    (stuck : prepare tree override test lines = .error (.missing missing)) :
    resolvedRules tree test.config (mentions lines) = .error missing := by
  cases resolved : resolvedRules tree test.config (mentions lines) with
  | error cause =>
    cases (prepare_missing override resolved).symm.trans stuck
    rfl
  | ok rules =>
    -- Then only a run-line can be in the way.
    have commands := prepare_found override resolved ((rulesOf_iff resolved).mpr rfl)
    rw [stuck] at commands
    obtain ⟨_, _, _, _, _, _, _, other⟩ := commandsOf_eq_error_iff.mp commands.symm
    cases other

section

variable {tree : FileTree} {config : EffectiveConfig} {lines : List RunLine} {place : Nat}
  {missing : Tool.NotFound}

/-- The name in the error is the one that was looked for. -/
theorem name_of_missing_tool {places : Tool.Places} {name : String}
    (absent : places.tool tree name = .error missing) : missing.name = name := by
  unfold Tool.Places.tool at absent
  split at absent <;> cases absent
  rfl

theorem name_of_missing_library {places : Tool.Places} {name : String}
    (absent : places.library tree name = .error missing) : missing.name = name := by
  unfold Tool.Places.library at absent
  split at absent <;> cases absent
  rfl

theorem Lacks.mentioned (lacks : Lacks tree config lines place missing) :
    Mentioned lines missing.name := by
  cases lacks with
  | tool configured mentioned absent => exact name_of_missing_tool absent ▸ mentioned
  | library configured mentioned absent => exact name_of_missing_library absent ▸ mentioned

theorem Lacks.configured (lacks : Lacks tree config lines place missing) :
    (config.tools ++ config.libraries)[place]? = some missing.name := by
  cases lacks with
  | tool configured mentioned absent =>
    obtain ⟨within, -⟩ := List.getElem?_eq_some_iff.mp configured
    rw [List.getElem?_append_left within, configured, name_of_missing_tool absent]
  | library configured mentioned absent =>
    rw [List.getElem?_append_right (Nat.le_add_right _ _), Nat.add_sub_cancel_left, configured,
      name_of_missing_library absent]

/-- The rules of all tools and then all libraries come first among those of a test. -/
theorem Lacks.pattern (lacks : Lacks tree config lines place missing) {all : List Rule}
    (every : all.map (·.pattern) = (config.tools ++ config.libraries).map placeholder)
    (paths : TestPaths) :
    ((config.rulesFor all paths).map (·.pattern))[place]? = some (placeholder missing.name) := by
  have here : (all.map (·.pattern))[place]? = some (placeholder missing.name) := by
    rw [every, List.getElem?_map, lacks.configured, Option.map_some]
  obtain ⟨within, -⟩ := List.getElem?_eq_some_iff.mp here
  rw [EffectiveConfig.rulesFor, List.append_assoc, List.map_append,
    List.getElem?_append_left within, here]

end

theorem evaluate_of_obstacle {σ : Type} (executor : Executor σ) (world : σ)
    {override : Option UInt64} {test : TestCase} {directives : TestDirectives} {obstacle : Obstacle}
    (read : test.directives = .ok directives) (permitted : Permitted test.config directives)
    (stuck : prepare (executor.files world) override test directives.runLines = .error obstacle) :
    (evaluate executor override test world).1 =
      some (.ofReason .unresolved obstacle.message) := by
  rw [evaluate_settled executor world (plan_of_obstacle read permitted stuck)]

/-- If a test is unresolved since a tool or library is missing, then its placeholder occurs in some
run-line. Let there be rules for all tools and then all libraries, wherever they lead. Wherever the
placeholder occurs, its own rule is then applied, or the placeholder is escaped, or taken or covered
by another rule, or it is not read at all since a malformed one is in front of it. -/
theorem missing_is_mentioned {σ : Type} (executor : Executor σ) (override : Option UInt64)
    (test : TestCase) (world : σ) (directives : TestDirectives) (missing : Tool.NotFound)
    (read : test.directives = .ok directives) (permitted : Permitted test.config directives)
    (stuck : prepare (executor.files world) override test directives.runLines =
      .error (.missing missing)) :
    (evaluate executor override test world).1 =
      some (.ofReason .unresolved missing.message) ∧
    ∃ place, Lacks (executor.files world) test.config directives.runLines place missing ∧
      Mentioned directives.runLines missing.name ∧
      ∀ all, all.map (·.pattern) = (test.config.tools ++ test.config.libraries).map placeholder →
        ∀ paths, ∀ line ∈ directives.runLines, ∀ passed behind,
          line.command.toList = passed ++ ((placeholder missing.name).toList ++ behind) →
          Fate ((test.config.rulesFor all paths).map (·.pattern)) place line.command.toList
            passed := by
  obtain ⟨place, lacks⟩ := lacks_of_resolvedRules (resolvedRules_of_prepare stuck)
  refine ⟨evaluate_of_obstacle executor world read permitted stuck, place, lacks,
    lacks.mentioned, ?_⟩
  intro all every paths line _ passed behind split
  rw [split]
  exact fate_of_placeholder (lacks.pattern every paths) passed behind

/-! ### Mentioned and not used -/

def commandDirectives (command : String) : TestDirectives := { runLines := [⟨command, 1, true⟩] }

/-- A test of one command under a single layer. -/
def commandTest (layer : Layer) (command : String) : TestCase :=
  { path := ⟨"/suite/a.t"⟩, relative := ⟨"a.t"⟩, config := flatten [layer],
    directives := .ok (commandDirectives command) }

theorem permitted_command {layer : Layer} (supported : (flatten [layer]).unsupported = false)
    (command : String) : Permitted (flatten [layer]) (commandDirectives command) :=
  ⟨supported, nofun, nofun, List.cons_ne_nil _ _⟩

/-- A tool that is nowhere, and a rule whose pattern ends in its placeholder. -/
def bareLayer : Layer where
  scope := ⟨"/suite/litmus.toml"⟩
  substitutions := [⟨"%load=%\x7bopt\x7d", "none"⟩]
  tools := ["opt"]

def optMissing : Tool.NotFound := ⟨.executable, "opt", []⟩

/-- Here the placeholder is used once, and escaped once. -/
theorem bareLayer_mentions :
    Permitted (flatten [bareLayer]) (commandDirectives "%\x7bopt\x7d %%\x7bopt\x7d") ∧
    prepare {} none (commandTest bareLayer "%\x7bopt\x7d %%\x7bopt\x7d")
        (commandDirectives "%\x7bopt\x7d %%\x7bopt\x7d").runLines =
      .error (.missing optMissing) ∧
    (evaluate alwaysFailing none (commandTest bareLayer "%\x7bopt\x7d %%\x7bopt\x7d") 0).1 =
      some (.ofReason .unresolved optMissing.message) ∧
    ∃ place, ∀ passed ∈ ["", "%\x7bopt\x7d %"],
      Fate (((flatten [bareLayer]).rulesFor [⟨"%\x7bopt\x7d", "/bin/opt"⟩]
        (.ofTest ⟨"/suite/a.t"⟩ ⟨"a.t"⟩ ⟨"/build"⟩)).map (·.pattern)) place
          "%\x7bopt\x7d %%\x7bopt\x7d".toList passed.toList := by
  have permitted :
      Permitted (flatten [bareLayer]) (commandDirectives "%\x7bopt\x7d %%\x7bopt\x7d") :=
    permitted_command rfl _
  have stuck : prepare {} none (commandTest bareLayer "%\x7bopt\x7d %%\x7bopt\x7d")
      (commandDirectives "%\x7bopt\x7d %%\x7bopt\x7d").runLines =
        .error (.missing optMissing) := rfl
  obtain ⟨unresolved, place, -, -, fates⟩ := missing_is_mentioned alwaysFailing none
    (commandTest bareLayer "%\x7bopt\x7d %%\x7bopt\x7d") 0
    (commandDirectives "%\x7bopt\x7d %%\x7bopt\x7d") optMissing rfl permitted stuck
  refine ⟨permitted, stuck, unresolved, place, fun passed member => ?_⟩
  have fate := fates [⟨"%\x7bopt\x7d", "/bin/opt"⟩] rfl
    (.ofTest ⟨"/suite/a.t"⟩ ⟨"a.t"⟩ ⟨"/build"⟩) _ (List.mem_singleton_self _)
  simp only [List.mem_cons, List.not_mem_nil, or_false] at member
  rcases member with rfl | rfl
  · exact fate [] " %%\x7bopt\x7d".toList (by decide)
  · exact fate "%\x7bopt\x7d %".toList [] (by decide)

section

variable {all : List Rule} {paths : TestPaths}

theorem patterns_bare (every : all.map (·.pattern) = ["%\x7bopt\x7d"]) :
    ((flatten [bareLayer]).rulesFor all paths).map (·.pattern) = ["%\x7bopt\x7d",
      "%load=%\x7bopt\x7d", "%s", "%S", "%p", "%t", "%T", "%\x7bpathsep\x7d"] := by
  rw [EffectiveConfig.rulesFor, List.map_append, List.map_append, every]
  rfl

theorem not_applied_escaped (every : all.map (·.pattern) = ["%\x7bopt\x7d"]) :
    ¬ Applied ((flatten [bareLayer]).rulesFor all paths) 0 "echo %%\x7bopt\x7d" := by
  have signed : ∀ rule ∈ (flatten [bareLayer]).rulesFor all paths,
      rule.pattern = "" ∨ ['%'] <+: rule.pattern.toList := by
    rw [← List.forall_mem_map (f := Rule.pattern)
      (P := fun pattern => pattern = "" ∨ ['%'] <+: pattern.toList), patterns_bare every]
    decide
  exact not_applied_escape signed 0 "echo %\x7bopt\x7d".toList

theorem not_applied_covered (every : all.map (·.pattern) = ["%\x7bopt\x7d"]) :
    ¬ Applied ((flatten [bareLayer]).rulesFor all paths) 0 "%load=%\x7bopt\x7d" := by
  rintro ⟨passed, ⟨pattern, rest, reached, stands⟩, -⟩
  rw [patterns_bare every] at reached stands
  have whole : Stands ["%\x7bopt\x7d", "%load=%\x7bopt\x7d", "%s", "%S", "%p", "%t", "%T",
      "%\x7bpathsep\x7d"] (.occurrence 1 "%load=%\x7bopt\x7d")
      ((Segment.occurrence 1 "%load=%\x7bopt\x7d").text ++ []) := by
    refine .occurrence (by decide) rfl (by decide) fun earlier before other here => ?_
    obtain rfl : earlier = 0 := Nat.lt_one_iff.mp before
    cases here
    decide
  -- The word that covers the placeholder is read in one piece, so no rule is applied inside of it.
  rcases (reaches_next_iff whole).mp reached with ⟨-, rfl⟩ | ⟨later, -, behind⟩
  · cases whole.unique stands
  · obtain ⟨-, rfl⟩ := List.append_eq_nil_iff.mp behind.whole.symm
    cases stands with
    | occurrence single here begins first => exact not_begins_nil pattern begins

theorem not_applied_unread (every : all.map (·.pattern) = ["%\x7bopt\x7d"]) :
    ¬ Applied ((flatten [bareLayer]).rulesFor all paths) 0 "%\x7b\x7d %\x7bopt\x7d" := by
  rintro ⟨passed, -, unbroken⟩
  rw [patterns_bare every] at unbroken
  refine unbroken [] "\x7d %\x7bopt\x7d".toList ⟨.here _, by decide, ?_⟩ List.nil_prefix
  exact .inr ⟨[], _, rfl, List.not_mem_nil, .inl rfl⟩

end

/-- A library with the name of a tool. -/
def namesakeLayer : Layer :=
  { scope := ⟨"/suite/litmus.toml"⟩, tools := ["opt"], libraries := ["opt"],
    toolDirs := [⟨"/bin"⟩], libraryDirs := [⟨"/lib"⟩] }

theorem not_applied_namesake {all : List Rule} {paths : TestPaths}
    (every : all.map (·.pattern) = ["%\x7bopt\x7d", "%\x7bopt\x7d"]) (template : String) :
    ¬ Applied ((flatten [namesakeLayer]).rulesFor all paths) 1 template := by
  have patterns : ((flatten [namesakeLayer]).rulesFor all paths).map (·.pattern) =
      "%\x7bopt\x7d" :: "%\x7bopt\x7d" :: paths.rules.map (·.pattern) := by
    rw [EffectiveConfig.rulesFor, List.map_append, List.map_append, every]
    rfl
  exact not_applied_behind (by rw [patterns]; rfl) (by rw [patterns]; rfl) Nat.one_pos template

/-- Whoever executes it, the test of a command is unresolved for want of a tool or library whose
rule, at this place of the list, would be applied in none of its run-lines. -/
structure UnresolvedUnused (tree : FileTree) (layer : Layer) (command : String) (place : Nat)
    (missing : Tool.NotFound) : Prop where
  stuck : prepare tree none (commandTest layer command) (commandDirectives command).runLines =
    .error (.missing missing)
  unresolved : ∀ (σ : Type) (executor : Executor σ) (world : σ), executor.files world = tree →
    (evaluate executor none (commandTest layer command) world).1 =
      some (.ofReason .unresolved missing.message)
  configured : ((flatten [layer]).tools ++ (flatten [layer]).libraries)[place]? = some missing.name
  unused : ∀ all paths, all.map (·.pattern) =
      ((flatten [layer]).tools ++ (flatten [layer]).libraries).map placeholder →
    ¬ ∃ line ∈ (commandDirectives command).runLines,
      Applied ((flatten [layer]).rulesFor all paths) place line.command

theorem UnresolvedUnused.of_stuck {tree : FileTree} {layer : Layer} {command : String} {place : Nat}
    {missing : Tool.NotFound} (supported : (flatten [layer]).unsupported = false)
    (stuck : prepare tree none (commandTest layer command) (commandDirectives command).runLines =
      .error (.missing missing))
    (configured :
      ((flatten [layer]).tools ++ (flatten [layer]).libraries)[place]? = some missing.name)
    (unused : ∀ all paths, all.map (·.pattern) =
        ((flatten [layer]).tools ++ (flatten [layer]).libraries).map placeholder →
      ¬ Applied ((flatten [layer]).rulesFor all paths) place command) :
    UnresolvedUnused tree layer command place missing where
  stuck := stuck
  unresolved := by
    rintro σ executor world rfl
    exact evaluate_of_obstacle executor world rfl (permitted_command supported command) stuck
  configured := configured
  unused := by
    rintro all paths every ⟨line, member, applied⟩
    obtain rfl := List.mem_singleton.mp member
    exact unused all paths every applied

/-- To be mentioned is enough: escaped, covered by another rule, behind what is malformed, or taken
by the rule of a tool with the same name. -/
theorem unused_mention_unresolved :
    UnresolvedUnused {} bareLayer "echo %%\x7bopt\x7d" 0 optMissing ∧
    UnresolvedUnused {} bareLayer "%load=%\x7bopt\x7d" 0 optMissing ∧
    UnresolvedUnused {} bareLayer "%\x7b\x7d %\x7bopt\x7d" 0 optMissing ∧
    UnresolvedUnused toolBox namesakeLayer "%\x7bopt\x7d" 1 ⟨.library, "opt", [⟨"/lib"⟩]⟩ := by
  refine ⟨.of_stuck rfl rfl rfl ?escaped, .of_stuck rfl rfl rfl ?covered,
    .of_stuck rfl rfl rfl ?unread, .of_stuck rfl (by decide +kernel) rfl ?namesake⟩
  case escaped => exact fun all paths every => not_applied_escaped every
  case covered => exact fun all paths every => not_applied_covered every
  case unread => exact fun all paths every => not_applied_unread every
  case namesake => exact fun all paths every => not_applied_namesake every _

end SuiteRunner.Run
