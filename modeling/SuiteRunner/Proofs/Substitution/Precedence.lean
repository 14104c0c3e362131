import SuiteRunner.Config.Effective
import SuiteRunner.Proofs.Substitution.Reading

/-!
# Precedence

At each place of a template a doubled percent sign comes before all rules, and among the rules that
begin the text there the first one comes before all others. So a rule makes no difference if
another one always comes before it, and the order of two rules makes none if they never begin the
same text. And a text whose percent signs are doubled is read back as it was.
-/

namespace SuiteRunner.Substitution

/-! ### The first rule of all -/

theorem Rule.first?_append (rules others : List Rule) (text : List Char) :
    Rule.first? (rules ++ others) text = (Rule.first? rules text).or (Rule.first? others text) := by
  induction rules with
  | nil => rfl
  | cons head rules ih =>
    by_cases begins : Begins head.pattern text
    · obtain ⟨rest, rfl⟩ := begins.begins
      rw [List.cons_append, first?_cons_of_begins _ _ begins.nonempty,
        first?_cons_of_begins _ _ begins.nonempty]
      rfl
    · rw [List.cons_append, first?_cons_of_not_begins _ begins, first?_cons_of_not_begins _ begins,
        ih]

/-- Rules that do not begin a text can be left out. -/
theorem Rule.first?_filter {rules : List Rule} {keep : Rule → Bool} {text : List Char}
    (idle : ∀ rule ∈ rules, keep rule = false → ¬ Begins rule.pattern text) :
    Rule.first? (rules.filter keep) text = Rule.first? rules text := by
  induction rules with
  | nil => rfl
  | cons head rules ih =>
    obtain ⟨here, idle⟩ := List.forall_mem_cons.mp idle
    rw [List.filter_cons]
    cases kept : keep head with
    | true =>
      rw [if_pos rfl, ← List.singleton_append, first?_append, ih idle, ← first?_append]
      rfl
    | false =>
      rw [if_neg Bool.false_ne_true, ih idle, first?_cons_of_not_begins _ (here kept)]

/-- The rule that is applied to a text is the first of all that begin it. -/
theorem Rule.first_of_first? {rules : List Rule} {rule : Rule} {text after : List Char}
    (found : Rule.first? rules text = some (rule, after)) :
    Begins rule.pattern text ∧ text = rule.pattern.toList ++ after ∧
      ∃ before behind, rules = before ++ rule :: behind ∧
        ∀ other ∈ before, ¬ Begins other.pattern text := by
  -- By induction on the rules: the first of them matches, or it is one more of those in front that
  -- do not.
  induction rules with
  | nil => cases found
  | cons head rules ih =>
    by_cases begins : Begins head.pattern text
    · obtain ⟨rest, rfl⟩ := begins.begins
      rw [first?_cons_of_begins _ _ begins.nonempty] at found
      cases found
      exact ⟨begins, rfl, [], rules, rfl, by simp⟩
    · rw [first?_cons_of_not_begins _ begins] at found
      obtain ⟨begins', split, before, behind, rfl, others⟩ := ih found
      exact ⟨begins', split, head :: before, behind, rfl,
        List.forall_mem_cons.mpr ⟨begins, others⟩⟩

theorem Rule.suffix_of_first? {rules : List Rule} {rule : Rule} {text after : List Char}
    (found : Rule.first? rules text = some (rule, after)) : after <:+ text :=
  ⟨rule.pattern.toList, (first_of_first? found).2.1.symm⟩

theorem Rule.first?_eq_none_iff {rules : List Rule} {text : List Char} :
    Rule.first? rules text = none ↔ ∀ rule ∈ rules, ¬ Begins rule.pattern text := by
  constructor
  · intro missing rule member begins
    obtain ⟨before, behind, rfl⟩ := List.append_of_mem member
    obtain ⟨rest, rfl⟩ := begins.begins
    rw [first?_append, first?_cons_of_begins _ _ begins.nonempty, Option.or_eq_none_iff] at missing
    cases missing.2
  · exact fun none => first?_of_none (List.forall_mem_map.mpr none)

/-! ### Rules that are applied alike -/

theorem not_doubled {c : Char} {rest : List Char}
    (single : ∀ rest', c = '%' → rest = '%' :: rest' → False) : ¬ ['%', '%'] <+: c :: rest := by
  rintro ⟨rest', whole⟩
  cases whole
  exact single rest' rfl rfl

/-- A text is substituted alike by rules that are applied alike at each of its ends that does not
begin with a doubled percent sign. -/
theorem substituteFrom_congr {rules others : List Rule} {text : List Char}
    (alike : ∀ rest, rest <:+ text → ¬ ['%', '%'] <+: rest →
      Rule.first? rules rest = Rule.first? others rest)
    (offset : Nat) : substituteFrom rules offset text = substituteFrom others offset text := by
  -- What is left after a step is an end of the text, and so are the ends of it.
  fun_induction substituteFrom rules offset text with
  | case1 => rw [substituteFrom_nil]
  | case2 offset rest ih =>
    have behind : rest <:+ '%' :: '%' :: rest := List.suffix_append ['%', '%'] rest
    rw [substituteFrom_percent, ih fun rest' ends => alike rest' (ends.trans behind)]
  | case3 offset c rest single rule after found _ ih =>
    have found' := (alike _ List.suffix_rfl (not_doubled single)).symm.trans found
    have behind := Rule.suffix_of_first? found
    rw [substituteFrom_applied offset (not_doubled single) found',
      ih fun rest' ends => alike rest' (ends.trans behind)]
  | case4 offset c rest single missing part problem malformed =>
    have missing' := (alike _ List.suffix_rfl (not_doubled single)).symm.trans missing
    rw [substituteFrom_copied offset (not_doubled single) missing', malformed]
  | case5 offset c rest single missing copied ih =>
    have missing' := (alike _ List.suffix_rfl (not_doubled single)).symm.trans missing
    rw [substituteFrom_copied offset (not_doubled single) missing', copied,
      ih fun rest' ends => alike rest' (ends.trans (List.suffix_cons c rest))]

/-- Rules that are applied alike to every text are alike. -/
theorem substitute_congr {rules others : List Rule}
    (alike : ∀ text, ¬ ['%', '%'] <+: text → Rule.first? rules text = Rule.first? others text)
    (template : String) : substitute rules template = substitute others template := by
  rw [substitute, substitute, substituteFrom_congr fun rest _ => alike rest]

/-- Rules whose patterns occur nowhere in a template can be left out in front of others. -/
theorem substitute_filter {rules : List Rule} {keep : Rule → Bool} {template : String}
    (idle : ∀ rule ∈ rules, keep rule = false → ¬ rule.pattern.toList <:+: template.toList)
    (others : List Rule) :
    substitute (rules.filter keep ++ others) template = substitute (rules ++ others) template := by
  have alike : ∀ rest, rest <:+ template.toList → ¬ ['%', '%'] <+: rest →
      Rule.first? (rules.filter keep ++ others) rest = Rule.first? (rules ++ others) rest := by
    intro rest ends _
    rw [Rule.first?_append, Rule.first?_append, Rule.first?_filter]
    intro rule member dropped begins
    exact idle rule member dropped (begins.begins.isInfix.trans ends.isInfix)
  rw [substitute, substitute, substituteFrom_congr alike]

/-! ### Rules that come too late -/

/-- Behind these rules the rule is never applied: it has no pattern, or a doubled percent sign
begins its pattern, or one of the rules before it does. -/
def Idle (before : List Rule) (rule : Rule) : Prop :=
  rule.pattern = "" ∨ ['%', '%'] <+: rule.pattern.toList ∨
    ∃ earlier ∈ before, earlier.pattern ≠ "" ∧ earlier.pattern.toList <+: rule.pattern.toList

theorem Rule.first?_of_idle {before : List Rule} {rule : Rule} (idle : Idle before rule)
    (behind : List Rule) {text : List Char} (single : ¬ ['%', '%'] <+: text) :
    Rule.first? (before ++ rule :: behind) text = Rule.first? (before ++ behind) text := by
  rw [first?_append, first?_append]
  by_cases begins : Begins rule.pattern text
  · rcases idle with empty | doubled | ⟨earlier, member, nonempty, prefixes⟩
    · exact absurd empty begins.nonempty
    · exact absurd (doubled.trans begins.begins) single
    · cases found : Rule.first? before text with
      | some answer => rfl
      | none =>
        have others := first?_eq_none_iff.mp found
        exact absurd ⟨nonempty, prefixes.trans begins.begins⟩ (others earlier member)
  · rw [first?_cons_of_not_begins behind begins]

/-! ### The order of rules -/

/-- The pattern of one of the rules begins that of the other. Only such rules can begin the same
text. -/
def Rule.Competes (rule other : Rule) : Prop :=
  rule.pattern.toList <+: other.pattern.toList ∨ other.pattern.toList <+: rule.pattern.toList

theorem Rule.competes_of_begins {rule other : Rule} {text : List Char}
    (begins : Begins rule.pattern text) (begins' : Begins other.pattern text) :
    rule.Competes other :=
  List.prefix_or_prefix_of_prefix begins.begins begins'.begins

/-- The lists hold the same rules, each as often as the other does, and any two rules that compete
are in the same order in both. -/
def Reordered (rules others : List Rule) : Prop :=
  ∀ first second : Rule, first.Competes second →
    rules.filter (fun rule => rule = first ∨ rule = second) =
      others.filter (fun rule => rule = first ∨ rule = second)

theorem Reordered.symm {rules others : List Rule} (reordered : Reordered rules others) :
    Reordered others rules := fun first second competes => (reordered first second competes).symm

theorem Reordered.mem {rules others : List Rule} (reordered : Reordered rules others) {rule : Rule}
    (member : rule ∈ rules) : rule ∈ others := by
  have same := reordered rule rule (.inl List.prefix_rfl)
  have kept : rule ∈ rules.filter (fun other => other = rule ∨ other = rule) :=
    List.mem_filter.mpr ⟨member, by simp⟩
  rw [same] at kept
  exact (List.mem_filter.mp kept).1

/-- What is left of a list in which nothing before an item is kept begins with the item. -/
theorem head?_filter_split {before : List Rule} {rule : Rule} {keep : Rule → Bool}
    (dropped : ∀ other ∈ before, keep other = false) (kept : keep rule = true)
    (behind : List Rule) :
    ((before ++ rule :: behind).filter keep).head? = some rule := by
  have none : before.filter keep = [] := List.filter_eq_nil_iff.mpr (by simpa using dropped)
  rw [List.filter_append, none, List.nil_append, List.filter_cons_of_pos kept, List.head?_cons]

theorem Reordered.first? {rules others : List Rule} (reordered : Reordered rules others)
    (text : List Char) : Rule.first? rules text = Rule.first? others text := by
  cases found : Rule.first? rules text with
  | none =>
    symm
    rw [Rule.first?_eq_none_iff] at found ⊢
    exact fun rule member => found rule (reordered.symm.mem member)
  | some answer =>
    obtain ⟨rule, after⟩ := answer
    obtain ⟨begins, split, before, behind, rfl, earlier⟩ := Rule.first_of_first? found
    cases found' : Rule.first? others text with
    | none =>
      have member := reordered.mem (List.mem_append_right before (List.mem_cons_self (a := rule)))
      exact absurd begins (Rule.first?_eq_none_iff.mp found' rule member)
    | some answer =>
      obtain ⟨rule', after'⟩ := answer
      obtain ⟨begins', split', before', behind', rfl, earlier'⟩ := Rule.first_of_first? found'
      -- Both are the first of the two in their list, and the two are in the same order in both.
      have same := reordered rule rule' (Rule.competes_of_begins begins begins')
      have apart : ∀ list : List Rule, (∀ other ∈ list, ¬ Begins other.pattern text) →
          ∀ other ∈ list, decide (other = rule ∨ other = rule') = false := by
        intro list none other member
        refine decide_eq_false fun either => none other member ?_
        rcases either with rfl | rfl
        · exact begins
        · exact begins'
      have head := head?_filter_split (apart before earlier) (decide_eq_true (.inl rfl)) behind
      have head' := head?_filter_split (apart before' earlier') (decide_eq_true (.inr rfl)) behind'
      rw [same] at head
      cases head.symm.trans head'
      cases List.append_cancel_left (split.symm.trans split')
      rfl

/-- Two rules that do not compete can change places if they are neighbours. -/
theorem reordered_swap {first second : Rule} (apart : ¬ first.Competes second)
    (before behind : List Rule) :
    Reordered (before ++ first :: second :: behind) (before ++ second :: first :: behind) := by
  intro one other competes
  -- Of two rules that compete, at most one is among the two that change places.
  have notBoth : ¬ ((first = one ∨ first = other) ∧ (second = one ∨ second = other)) := by
    rintro ⟨rfl | rfl, rfl | rfl⟩
    · exact apart (.inl List.prefix_rfl)
    · exact apart competes
    · exact apart competes.symm
    · exact apart (.inl List.prefix_rfl)
  by_cases kept : first = one ∨ first = other
  · have dropped : ¬ (second = one ∨ second = other) := fun kept' => notBoth ⟨kept, kept'⟩
    simp [kept, dropped]
  · simp [List.filter_cons, kept]

theorem substitute_reordered {rules others : List Rule} (reordered : Reordered rules others)
    (template : String) : substitute rules template = substitute others template :=
  substitute_congr (fun text _ => reordered.first? text) template

/-! ### Rules of a configuration -/

open Config

/-- A rule behind one with the same pattern is never applied. -/
theorem not_applied_behind {rules : List Rule} {place earlier : Nat} {pattern : String}
    (here : (rules.map (·.pattern))[place]? = some pattern)
    (there : (rules.map (·.pattern))[earlier]? = some pattern) (before : earlier < place)
    (template : String) : ¬ Applied rules place template := by
  rintro ⟨passed, ⟨other, rest, -, stands⟩, -⟩
  cases stands with
  | occurrence single here' begins none =>
    cases here.symm.trans here'
    exact none earlier before pattern there begins

/-- The rules of a test that are at least as specific as those of a layer: those of the tools and
libraries, then those of the layers before it and its own. -/
def rulesUpTo (resolved : List Rule) (nearer : List Layer) (layer : Layer) : List Rule :=
  resolved ++ (nearer ++ [layer]).flatMap (·.substitutions)

/-- The rules of the variables that have a text. -/
def variableRules (config : EffectiveConfig) : List Rule :=
  config.vars.entries.filterMap fun (name, setting) =>
    setting.replacement?.map fun text => ⟨variablePlaceholder name, text⟩

/-- The rules of a test behind those of a layer: those of its ancestors, those of the variables, and
those that every test has. -/
def rulesBehind (config : EffectiveConfig) (farther : List Layer) (paths : TestPaths) : List Rule :=
  farther.flatMap (·.substitutions) ++ variableRules config ++ paths.rules

theorem rulesFor_flatten (nearer : List Layer) (layer : Layer) (farther : List Layer)
    (resolved : List Rule) (paths : TestPaths) :
    (flatten (nearer ++ layer :: farther)).rulesFor resolved paths =
      rulesUpTo resolved nearer layer ++
        rulesBehind (flatten (nearer ++ layer :: farther)) farther paths := by
  have configured : (flatten (nearer ++ layer :: farther)).substitutions =
      (nearer ++ [layer]).flatMap (·.substitutions) ++ farther.flatMap (·.substitutions) := by
    rw [← List.flatMap_append, List.append_assoc]
    rfl
  rw [EffectiveConfig.rulesFor, EffectiveConfig.rules, configured, rulesUpTo, rulesBehind,
    variableRules]
  simp only [List.append_assoc]

theorem eq_append_of_getElem? {rules : List Rule} {place : Nat} {rule : Rule}
    (here : rules[place]? = some rule) :
    rules = rules.take place ++ rule :: rules.drop (place + 1) := by
  obtain ⟨within, rfl⟩ := List.getElem?_eq_some_iff.mp here
  rw [← List.drop_eq_getElem_cons within, List.take_append_drop]

theorem substitute_without_idle {before : List Rule} {rule : Rule} (idle : Idle before rule)
    (behind : List Rule) (template : String) :
    substitute (before ++ behind) template = substitute (before ++ rule :: behind) template :=
  substitute_congr (fun _ single => (Rule.first?_of_idle idle behind single).symm) template

/-- Whoever comes behind a rule with the same pattern can be left out. -/
theorem substitute_eraseIdx {rules : List Rule} {place earlier : Nat} {rule first : Rule}
    (here : rules[place]? = some rule) (there : rules[earlier]? = some first)
    (before : earlier < place) (same : rule.pattern = first.pattern) (template : String) :
    substitute (rules.eraseIdx place) template = substitute rules template := by
  have idle : Idle (rules.take place) rule := by
    by_cases empty : rule.pattern = ""
    · exact .inl empty
    · have member : first ∈ rules.take place :=
        List.mem_of_getElem? ((List.getElem?_take_of_lt before).trans there)
      exact .inr (.inr ⟨first, member, same ▸ empty, same ▸ List.prefix_rfl⟩)
  have left := substitute_without_idle idle (rules.drop (place + 1)) template
  rw [← eq_append_of_getElem? here] at left
  rw [List.eraseIdx_eq_take_drop_succ, left]

/-- Only the precedence of rules counts, whatever the template. A rule can be left out if another
one, or a doubled percent sign, always comes before it. Neighbours can change places unless they
compete, and so can any rules that do not. In the rules of a test, whatever comes from an ancestor
of a layer, from a variable or from what every test has, and has the pattern of a rule of the layer,
is never applied and can be left out. -/
theorem precedence_decides (template : String) :
    (∀ before rule behind, Idle before rule →
      substitute (before ++ behind) template = substitute (before ++ rule :: behind) template) ∧
    (∀ before first second behind, ¬ first.Competes second →
      substitute (before ++ second :: first :: behind) template =
        substitute (before ++ first :: second :: behind) template) ∧
    (∀ rules others, Reordered rules others →
      substitute rules template = substitute others template) ∧
    ∀ chain nearer layer farther resolved paths, chain = nearer ++ layer :: farther →
      (flatten chain).rulesFor resolved paths =
        rulesUpTo resolved nearer layer ++ rulesBehind (flatten chain) farther paths ∧
      ∀ configured ∈ layer.substitutions, ∀ place rule,
        ((flatten chain).rulesFor resolved paths)[place]? = some rule →
        (rulesUpTo resolved nearer layer).length ≤ place → rule.pattern = configured.pattern →
        ¬ Applied ((flatten chain).rulesFor resolved paths) place template ∧
        substitute (((flatten chain).rulesFor resolved paths).eraseIdx place) template =
          substitute ((flatten chain).rulesFor resolved paths) template := by
  refine ⟨fun before rule behind idle => substitute_without_idle idle behind template,
    fun before first second behind apart =>
      (substitute_reordered (reordered_swap apart before behind) template).symm,
    fun rules others reordered => substitute_reordered reordered template, ?_⟩
  rintro _ nearer layer farther resolved paths rfl
  have layout := rulesFor_flatten nearer layer farther resolved paths
  refine ⟨layout, fun configured member place rule here behind same => ?_⟩
  -- A configured rule that comes behind its own layer has been given by that layer or a nearer one
  -- before.
  have among : configured ∈ rulesUpTo resolved nearer layer := by
    rw [rulesUpTo, List.flatMap_append, List.flatMap_singleton]
    exact List.mem_append_right _ (List.mem_append_right _ member)
  obtain ⟨earlier, within, found⟩ := List.getElem_of_mem among
  have there : ((flatten (nearer ++ layer :: farther)).rulesFor resolved paths)[earlier]? =
      some configured := by
    rw [layout, List.getElem?_append_left within, List.getElem?_eq_getElem within, found]
  have before := Nat.lt_of_lt_of_le within behind
  exact ⟨not_applied_behind (same ▸ pattern_getElem? here) (pattern_getElem? there) before template,
    substitute_eraseIdx here there before same template⟩

/-- The leaf has its own `%s` and its own text for a variable of the root. -/
def stubbornLeaf : Layer where
  scope := ⟨"/suite/a/litmus.local.toml"⟩
  substitutions := [⟨"%s", "mine"⟩, ⟨"%\x7bvar:mode\x7d", "fast"⟩]

def overriddenRoot : Layer where
  scope := ⟨"/suite/litmus.toml"⟩
  vars := .ofList [("mode", .text "debug")]
  substitutions := [⟨"%s", "theirs"⟩, ⟨"%o", "short"⟩, ⟨"%opt", "long"⟩]

def stubbornRules : List Rule :=
  (flatten [stubbornLeaf, overriddenRoot]).rulesFor []
    (.ofTest ⟨"/suite/a/x.t"⟩ ⟨"a/x.t"⟩ ⟨"/build"⟩)

/-- The rule of the root, that of the variable and that of every test come too late. The short rule
of the root comes before its long one, and might as well come before `%s`. -/
theorem stubbornLeaf_wins :
    (∀ place ∈ [2, 5, 6], ¬ Applied stubbornRules place "%s %\x7bvar:mode\x7d %%s %opt" ∧
      substitute (stubbornRules.eraseIdx place) "%s %\x7bvar:mode\x7d %%s %opt" =
        substitute stubbornRules "%s %\x7bvar:mode\x7d %%s %opt") ∧
    substitute [⟨"%s", "theirs"⟩, ⟨"%o", "short"⟩] "%s %\x7bvar:mode\x7d %%s %opt" =
      substitute [⟨"%s", "theirs"⟩, ⟨"%o", "short"⟩, ⟨"%opt", "long"⟩]
        "%s %\x7bvar:mode\x7d %%s %opt" ∧
    substitute [⟨"%o", "short"⟩, ⟨"%s", "theirs"⟩] "%s %\x7bvar:mode\x7d %%s %opt" =
      substitute [⟨"%s", "theirs"⟩, ⟨"%o", "short"⟩] "%s %\x7bvar:mode\x7d %%s %opt" := by
  obtain ⟨idle, swap, -, chains⟩ := precedence_decides "%s %\x7bvar:mode\x7d %%s %opt"
  obtain ⟨-, late⟩ := chains _ [] stubbornLeaf [overriddenRoot] []
    (.ofTest ⟨"/suite/a/x.t"⟩ ⟨"a/x.t"⟩ ⟨"/build"⟩) rfl
  refine ⟨fun place member => ?_, ?_, ?_⟩
  · simp only [List.mem_cons, List.not_mem_nil, or_false] at member
    rcases member with rfl | rfl | rfl
    · exact late ⟨"%s", "mine"⟩ (by decide) 2 ⟨"%s", "theirs"⟩ (by decide) (by decide) rfl
    · exact late ⟨"%\x7bvar:mode\x7d", "fast"⟩ (by decide) 5 ⟨"%\x7bvar:mode\x7d", "debug"⟩
        (by decide) (by decide) rfl
    · exact late ⟨"%s", "mine"⟩ (by decide) 6 ⟨"%s", "/suite/a/x.t"⟩ (by decide) (by decide) rfl
  · have short : Idle [⟨"%s", "theirs"⟩, ⟨"%o", "short"⟩] ⟨"%opt", "long"⟩ :=
      .inr (.inr ⟨⟨"%o", "short"⟩, by decide, by decide, by decide⟩)
    exact idle _ _ [] short
  · have apart : ¬ Rule.Competes ⟨"%s", "theirs"⟩ ⟨"%o", "short"⟩ := by
      unfold Rule.Competes
      decide
    exact swap [] _ _ [] apart

/-! ### Doubled percent signs -/

/-- The text with each percent sign doubled. -/
def escape (text : List Char) : List Char :=
  text.flatMap fun c => if c = '%' then ['%', '%'] else [c]

theorem escape_percent (text : List Char) : escape ('%' :: text) = '%' :: '%' :: escape text := rfl

theorem escape_other {c : Char} (other : c ≠ '%') (text : List Char) :
    escape (c :: text) = c :: escape text := by
  simp [escape, other]

section

variable {rules : List Rule}
  (signed : ∀ rule ∈ rules, rule.pattern = "" ∨ ['%'] <+: rule.pattern.toList)
include signed

/-- No rule begins a text that does not begin with a percent sign. -/
theorem not_begins_of_signed {c : Char} (other : c ≠ '%') (text : List Char) :
    ∀ pattern ∈ rules.map (·.pattern), ¬ Begins pattern (c :: text) := by
  rw [List.forall_mem_map]
  intro rule member begins
  rcases signed rule member with empty | percent
  · exact begins.nonempty empty
  · obtain ⟨rest, whole⟩ := percent.trans begins.begins
    cases whole
    exact other rfl

/-- In a text with doubled percent signs the reading never stands between the two. -/
theorem Reaches.of_escape {text passed rest : List Char}
    (reached : Reaches (rules.map (·.pattern)) (escape text) passed rest) :
    ∃ later, rest = escape later := by
  induction text generalizing passed with
  | nil =>
    have empty : [] = passed ++ rest := reached.whole
    exact ⟨[], (List.append_eq_nil_iff.mp empty.symm).2⟩
  | cons c text ih =>
    by_cases percent : c = '%'
    · subst percent
      have stands : Stands (rules.map (·.pattern)) .percent (Segment.percent.text ++ escape text) :=
        .percent _
      rcases (reaches_next_iff stands).mp reached with ⟨-, here⟩ | ⟨later, -, behind⟩
      · exact ⟨'%' :: text, here⟩
      · exact ih behind
    · rw [escape_other percent] at reached
      have stands : Stands (rules.map (·.pattern)) (.copied c)
          ((Segment.copied c).text ++ escape text) :=
        .copied (by simp [Ne.symm percent]) (not_begins_of_signed signed percent _)
      rcases (reaches_next_iff stands).mp reached with ⟨-, here⟩ | ⟨later, -, behind⟩
      · exact ⟨c :: text, by rw [here, escape_other percent]; rfl⟩
      · exact ih behind

/-- So no rule is applied to it. -/
theorem not_applied_escape (place : Nat) (text : List Char) :
    ¬ Applied rules place (String.ofList (escape text)) := by
  rintro ⟨passed, ⟨pattern, rest, reached, stands⟩, -⟩
  rw [String.toList_ofList] at reached
  obtain ⟨later, rfl⟩ := reached.of_escape signed
  cases stands with
  | occurrence single here begins none =>
    cases later with
    | nil => exact not_begins_nil pattern begins
    | cons c later =>
      by_cases percent : c = '%'
      · subst percent
        exact single ⟨escape later, rfl⟩
      · rw [escape_other percent] at begins
        exact not_begins_of_signed signed percent _ _ (List.mem_of_getElem? here) begins

theorem substituteFrom_escape (offset : Nat) (text : List Char) :
    substituteFrom rules offset (escape text) = .ok text := by
  induction text generalizing offset with
  | nil => exact substituteFrom_nil rules offset
  | cons c text ih =>
    by_cases percent : c = '%'
    · subst percent
      rw [escape_percent, substituteFrom_percent, ih]
      rfl
    · have single : ¬ ['%', '%'] <+: c :: escape text := by simp [Ne.symm percent]
      have missing := Rule.first?_of_none (not_begins_of_signed signed percent (escape text))
      have well : placeholderProblem? c (escape text) = none :=
        Option.eq_none_iff_forall_ne_some.mpr fun answer found =>
          have ⟨_, same, _⟩ := placeholderProblem?_eq_some_iff.mp found
          percent same
      rw [escape_other percent, substituteFrom_copied offset single missing, well, ih]
      rfl

end

/-- If every rule begins with a percent sign or has no pattern, then a text whose percent signs
are doubled is substituted by the text itself, whatever it is. -/
theorem substitute_escape (rules : List Rule)
    (signed : ∀ rule ∈ rules, rule.pattern = "" ∨ ['%'] <+: rule.pattern.toList) (text : String) :
    substitute rules (String.ofList (escape text.toList)) = .ok text := by
  rw [substitute, String.toList_ofList, substituteFrom_escape signed]
  exact congrArg Except.ok String.ofList_toList

/-- Rules for a percent sign, for a doubled one, for an opening brace and for no text at all. -/
def greedyRules : List Rule := [⟨"%s", "f"⟩, ⟨"%%", "q"⟩, ⟨"", "r"⟩, ⟨"%\x7b", "b"⟩, ⟨"%", "p"⟩]

theorem greedyRules_escape :
    (∀ rule ∈ greedyRules, rule.pattern = "" ∨ ['%'] <+: rule.pattern.toList) ∧
    substitute greedyRules "%%\x7b\x7d %%\x7bx %%%%s é%%" = .ok "%\x7b\x7d %\x7bx %%s é%" := by
  have signed : ∀ rule ∈ greedyRules, rule.pattern = "" ∨ ['%'] <+: rule.pattern.toList := by
    decide
  exact ⟨signed, substitute_escape greedyRules signed "%\x7b\x7d %\x7bx %%s é%"⟩

end SuiteRunner.Substitution
