import SuiteRunner.Config.Layer
import SuiteRunner.Tool.Lookup

/-!
# Effective configuration

Flattening a chain of layers, the most specific one first, decides every setting. A
single value is taken from the first layer that sets it; substitutions follow one
another; search lists follow one another without repeating an entry; sets are united;
a variable is what the most specific layer that sets it says, and if that is a list, the
lists of all layers behind are added to it like search lists.
-/

namespace SuiteRunner.Config

open Substitution (Rule)

structure EffectiveConfig where
  /-- The scopes of the layers, the most specific one first. -/
  chain : List Path
  name : String
  sourceRoot : Path
  execRoot : Path
  target : Option String
  unsupported : Bool
  shell : List String
  timeoutSecs : Option UInt64
  naming : Tool.Naming
  vars : Ordered.Table Setting
  env : Ordered.Table String
  substitutions : List Rule
  suffixes : List String
  excludes : List String
  features : List String
  tools : List String
  requiredTools : List String
  libraries : List String
  toolDirs : List Path
  libraryDirs : List Path
  deriving DecidableEq

/-! ### Merging -/

/-- Add the items that are not there yet, each behind all that came before it. -/
def appendUnique {α : Type} (same : α → α → Bool) (items found : List α) : List α :=
  found.foldl (fun items item => if items.any (same · item) then items else items ++ [item]) items

/-- Join lists, the first occurrence of every item staying. -/
def mergeLists {α : Type} (same : α → α → Bool) (lists : List (List α)) : List α :=
  lists.foldl (appendUnique same) []

/-- Let a layer behind the others set a variable. -/
def mergeVariable (vars : Ordered.Table Setting) (key : String) (setting : Setting) :
    Ordered.Table Setting :=
  match vars.lookup key, setting with
  | none, setting => vars.put key setting
  | some (.list items), .list more =>
    vars.put key (.list (appendUnique (· == ·) items more))
  | some _, _ => vars

def mergeVariables (vars : Ordered.Table Setting) (more : List (String × Setting)) :
    Ordered.Table Setting :=
  more.foldl (fun vars (key, setting) => mergeVariable vars key setting) vars

/-- Let a layer behind the others set environment entries. -/
def mergeEnvironment (env : Ordered.Table String) (more : List (String × String)) :
    Ordered.Table String :=
  more.foldl (fun env (key, value) =>
    if (env.lookup key).isSome then env else env.put key value) env

def unite (sets : List (List String)) : List String := sets.foldl Ordered.insertAll []

/-! ### Defaults -/

def defaultShell : List String := ["/bin/sh", "-c"]

def defaultName : String := "suite"

/-- Where tests are unless a layer says so: with the layer that all others inherit from. -/
def defaultRoot (chain : List Layer) : Path :=
  match chain.getLast? with
  | some layer => layer.directory
  | none => ⟨""⟩

/-- The configuration that a chain of layers amounts to, the most specific layer first. -/
def flatten (chain : List Layer) : EffectiveConfig :=
  let sourceRoot := (chain.findSome? (·.sourceRoot)).getD (defaultRoot chain)
  { chain := chain.map (·.scope)
    name := (chain.findSome? (·.name)).getD ((sourceRoot.fileName?.map Text.shown).getD defaultName)
    sourceRoot
    execRoot := (chain.findSome? (·.execRoot)).getD sourceRoot
    target := chain.findSome? (·.target)
    unsupported := (chain.findSome? (·.unsupported)).getD false
    shell := ((chain.findSome? (·.shell)).filter (!·.isEmpty)).getD defaultShell
    timeoutSecs := (chain.findSome? (·.timeout)).filter (0 < ·)
    naming :=
      { exeSuffix := (chain.findSome? (·.naming.exeSuffix)).getD ""
        shlibPrefix := (chain.findSome? (·.naming.shlibPrefix)).getD "lib"
        shlibExt := (chain.findSome? (·.naming.shlibExt)).getD ".so" }
    vars := chain.foldl (fun vars layer => mergeVariables vars layer.vars.entries) ∅
    env := chain.foldl (fun env layer => mergeEnvironment env layer.env.entries) ∅
    substitutions := chain.flatMap (·.substitutions)
    suffixes := mergeLists (· == ·) (chain.map (·.suffixes))
    excludes := mergeLists (· == ·) (chain.map (·.excludes))
    features := unite (chain.map (·.features))
    tools := unite (chain.map (·.tools))
    requiredTools := unite (chain.map (·.requiredTools))
    libraries := unite (chain.map (·.libraries))
    toolDirs := mergeLists Path.same (chain.map (·.toolDirs))
    libraryDirs := mergeLists Path.same (chain.map (·.libraryDirs)) }

namespace EffectiveConfig

/-! ### Questions -/

/-- The scope of the most specific layer. -/
def leafScope (config : EffectiveConfig) : Path := config.chain.head?.getD ⟨""⟩

def hasFeature (config : EffectiveConfig) (feature : String) : Bool :=
  config.features.contains feature

/-- Whether a name speaks of the platform: a feature, or a part of the target's name. -/
def matchesPlatform (config : EffectiveConfig) (name : String) : Bool :=
  config.hasFeature name ||
    config.target.any fun target => Text.occursIn name.toList target.toList

/-- Whether a file of this name is a test. -/
def isTestName (config : EffectiveConfig) (fileName : String) : Bool :=
  config.suffixes.any fun suffix => suffix.toList.isSuffixOf fileName.toList

/-- Whether some component of a path under the source root is excluded. -/
def isExcluded (config : EffectiveConfig) (relative : Path) : Bool :=
  relative.components.any fun component =>
    (config.excludes.map Text.pack).contains component.text

def places (config : EffectiveConfig) : Tool.Places :=
  ⟨config.toolDirs, config.libraryDirs, config.naming⟩

/-- The rules of the configuration itself: those written down, then one for every variable
that has a text. -/
def rules (config : EffectiveConfig) : List Rule :=
  config.substitutions ++ config.vars.entries.filterMap fun (name, setting) =>
    setting.replacement?.map fun text => ⟨Substitution.variablePlaceholder name, text⟩

/-- All rules for one test: those of the tools it uses, those of the configuration, and
those that every test has. -/
def rulesFor (config : EffectiveConfig) (resolved : List Rule)
    (paths : Substitution.TestPaths) : List Rule :=
  resolved ++ config.rules ++ paths.rules

end EffectiveConfig

end SuiteRunner.Config
