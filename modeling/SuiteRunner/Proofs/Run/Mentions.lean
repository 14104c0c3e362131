import SuiteRunner.Proofs.Run.Passing
import SuiteRunner.Proofs.Substitution.Precedence

/-!
# Tools that are not mentioned

Only the tools and libraries that the run-lines of a test mention are looked up, and only these
have rules. A rule whose pattern occurs nowhere in a template begins none of the texts that are
left while the template is read, so it makes no difference whether there is one. With the rules
of all tools and libraries the run-lines would be substituted alike.
-/

namespace SuiteRunner.Run

open Config Directive Substitution

/-! ### Mentioned names -/

/-- A name is mentioned if its placeholder occurs in a run-line. -/
theorem mentions_iff {lines : List RunLine} {name : String} :
    mentions lines name = true ↔
      ∃ line ∈ lines, (placeholder name).toList <:+: line.command.toList := by
  simp only [mentions, List.any_eq_true, Text.occursIn_iff]

/-- There is a rule for each of the names just if all of them are found. -/
theorem exists_resolves_iff {find : String → Except Tool.NotFound Path} {names : List String} :
    (∃ rules, List.Forall₂ (Resolves find) names rules) ↔
      ∀ name ∈ names, ∃ path, find name = .ok path := by
  rw [exists_forall₂_iff]
  refine forall₂_congr fun name _ => ⟨?_, ?_⟩
  · rintro ⟨_, path, found, -⟩
    exact ⟨path, found⟩
  · rintro ⟨path, found⟩
    exact ⟨_, path, found, rfl⟩

/-- Whether the pattern of a rule occurs in a run-line. -/
def needs (lines : List RunLine) (rule : Rule) : Bool :=
  lines.any fun line => Text.occursIn rule.pattern.toList line.command.toList

/-- The rules of the mentioned names are the rules whose patterns occur. -/
theorem resolves_mentioned {find : String → Except Tool.NotFound Path} {names : List String}
    {rules : List Rule} (resolved : List.Forall₂ (Resolves find) names rules)
    (lines : List RunLine) :
    List.Forall₂ (Resolves find) (names.filter (mentions lines)) (rules.filter (needs lines)) := by
  refine List.rel_filter (fun name rule resolves => ?_) resolved
  obtain ⟨path, -, rfl⟩ := resolves
  rfl

theorem substitute_needed {lines : List RunLine} {line : RunLine} (member : line ∈ lines)
    (rules others : List Rule) :
    substitute (rules.filter (needs lines) ++ others) line.command =
      substitute (rules ++ others) line.command := by
  refine substitute_filter (fun rule _ dropped occurs => ?_) others
  have needed : needs lines rule = true :=
    List.any_eq_true.mpr ⟨line, member, Text.occursIn_iff.mpr occurs⟩
  exact absurd dropped (by simp [needed])

/-! ### Rules for all tools and libraries -/

/-- Let all tools and libraries of a configuration be found. Then those that some run-lines
mention are found too, and each of these run-lines is substituted with their rules as it would
be with the rules of all tools and then all libraries. -/
theorem substitute_mentioned (tree : Files.FileTree) (config : EffectiveConfig)
    (lines : List RunLine) (paths : TestPaths)
    (tools : ∀ tool ∈ config.tools, ∃ path, config.places.tool tree tool = .ok path)
    (libraries : ∀ library ∈ config.libraries,
      ∃ path, config.places.library tree library = .ok path) :
    ∃ mentioned toolRules libraryRules,
      resolvedRules tree config (mentions lines) = .ok mentioned ∧
      List.Forall₂ (Resolves (config.places.tool tree)) config.tools toolRules ∧
      List.Forall₂ (Resolves (config.places.library tree)) config.libraries libraryRules ∧
      ∀ line ∈ lines, substitute (config.rulesFor mentioned paths) line.command =
        substitute (config.rulesFor (toolRules ++ libraryRules) paths) line.command := by
  obtain ⟨toolRules, foundTools⟩ := exists_resolves_iff.mpr tools
  obtain ⟨libraryRules, foundLibraries⟩ := exists_resolves_iff.mpr libraries
  refine ⟨_, toolRules, libraryRules, resolvedRules_eq_ok_iff.mpr ⟨_, _,
    resolves_mentioned foundTools lines, resolves_mentioned foundLibraries lines, rfl⟩,
    foundTools, foundLibraries, fun line member => ?_⟩
  rw [← List.filter_append, EffectiveConfig.rulesFor, EffectiveConfig.rulesFor, List.append_assoc,
    List.append_assoc, substitute_needed member]

/-- Three tools, one of which has the name of a library. -/
def toolBox : Files.FileTree where
  entries := [(["bin"], .directory), (["bin", "llc"], .file .empty true),
    (["bin", "opt"], .file .empty true), (["bin", "plugin"], .file .empty true),
    (["lib"], .directory), (["lib", "libplugin.so"], .file .empty false)]

def toolBoxConfig : EffectiveConfig :=
  { flatten [] with
    tools := ["llc", "opt", "plugin"]
    libraries := ["plugin"]
    toolDirs := [⟨"/bin"⟩]
    libraryDirs := [⟨"/lib"⟩] }

/-- One tool is mentioned where it is not substituted, and one is not mentioned. -/
def toolBoxLines : List RunLine :=
  [⟨"echo 100%%{llc}", 1, true⟩, ⟨"%{plugin} %s", 2, true⟩]

def toolBoxPaths : TestPaths := .ofTest ⟨"/suite/a.t"⟩ ⟨"a.t"⟩ ⟨"/build"⟩

theorem toolBox_mentioned :
    (∀ tool ∈ toolBoxConfig.tools, ∃ path, toolBoxConfig.places.tool toolBox tool = .ok path) ∧
    (∀ library ∈ toolBoxConfig.libraries,
      ∃ path, toolBoxConfig.places.library toolBox library = .ok path) ∧
    ∃ mentioned toolRules libraryRules,
      resolvedRules toolBox toolBoxConfig (mentions toolBoxLines) = .ok mentioned ∧
      mentioned.length = 3 ∧ (toolRules ++ libraryRules).length = 4 ∧
      ∀ line ∈ toolBoxLines,
        substitute (toolBoxConfig.rulesFor mentioned toolBoxPaths) line.command =
          substitute (toolBoxConfig.rulesFor (toolRules ++ libraryRules) toolBoxPaths)
            line.command := by
  have tools : ∀ tool ∈ toolBoxConfig.tools,
      ∃ path, toolBoxConfig.places.tool toolBox tool = .ok path := by
    intro tool member
    change tool ∈ ["llc", "opt", "plugin"] at member
    simp only [List.mem_cons, List.not_mem_nil, or_false] at member
    rcases member with rfl | rfl | rfl
    · exact ⟨⟨"/bin/llc"⟩, by decide +kernel⟩
    · exact ⟨⟨"/bin/opt"⟩, by decide +kernel⟩
    · exact ⟨⟨"/bin/plugin"⟩, by decide +kernel⟩
  have libraries : ∀ library ∈ toolBoxConfig.libraries,
      ∃ path, toolBoxConfig.places.library toolBox library = .ok path := by
    intro library member
    obtain rfl : library = "plugin" := List.mem_singleton.mp member
    exact ⟨⟨"/lib/libplugin.so"⟩, by decide +kernel⟩
  obtain ⟨mentioned, toolRules, libraryRules, found, allTools, allLibraries, alike⟩ :=
    substitute_mentioned toolBox toolBoxConfig toolBoxLines toolBoxPaths tools libraries
  have three : (resolvedRules toolBox toolBoxConfig (mentions toolBoxLines)).map List.length =
      .ok 3 := by decide +kernel
  refine ⟨tools, libraries, mentioned, toolRules, libraryRules, found, ?_, ?_, alike⟩
  · rw [found] at three
    exact Except.ok.inj three
  · rw [List.length_append, ← allTools.length_eq, ← allLibraries.length_eq]
    rfl

end SuiteRunner.Run
