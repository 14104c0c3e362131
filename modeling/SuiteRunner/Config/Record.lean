import SuiteRunner.Config.Effective
import SuiteRunner.Json.Basic

/-!
# A configuration as JSON

Every setting of an effective configuration, under its name and in the order of the
settings. What is not set is null. A path that is not UTF-8 cannot be written down.
-/

namespace SuiteRunner.Config

open Json (Value)

def pathValue (path : Path) : Value := .string path.shown

def Setting.record : Setting → Value
  | flag value => .boolean value
  | text value => .string value
  | list items => .strings items

def ruleRecord (rule : Substitution.Rule) : Value :=
  .object [("pattern", .string rule.pattern), ("replacement", .string rule.replacement)]

def namingRecord (naming : Tool.Naming) : Value :=
  .object
    [("exe_suffix", .string naming.exeSuffix),
     ("shlib_prefix", .string naming.shlibPrefix),
     ("shlib_ext", .string naming.shlibExt)]

def EffectiveConfig.paths (config : EffectiveConfig) : List Path :=
  config.chain ++ [config.sourceRoot, config.execRoot] ++ config.toolDirs ++ config.libraryDirs

def EffectiveConfig.isWritable (config : EffectiveConfig) : Bool :=
  config.paths.all fun path => (Text.decode? (Text.toBytes path.text)).isSome

/-- The entries of a table as fields. -/
def tableRecord {α : Type} (f : α → Value) (table : Ordered.Table α) : Value :=
  .object (table.entries.map fun (name, value) => (name, f value))

def EffectiveConfig.record (config : EffectiveConfig) : Value :=
  .object
    [("chain", .array (config.chain.map pathValue)),
     ("name", .string config.name),
     ("source_root", pathValue config.sourceRoot),
     ("exec_root", pathValue config.execRoot),
     ("target", .ofOption .string config.target),
     ("unsupported", .boolean config.unsupported),
     ("shell", .strings config.shell),
     ("timeout_secs", .ofOption (fun seconds => .ofNat seconds.toNat) config.timeoutSecs),
     ("platform", namingRecord config.naming),
     ("vars", tableRecord Setting.record config.vars),
     ("env", tableRecord .string config.env),
     ("substitutions", .array (config.substitutions.map ruleRecord)),
     ("suffixes", .strings config.suffixes),
     ("excludes", .strings config.excludes),
     ("features", .strings config.features),
     ("tools", .strings config.tools),
     ("required_tools", .strings config.requiredTools),
     ("libraries", .strings config.libraries),
     ("tool_dirs", .array (config.toolDirs.map pathValue)),
     ("library_dirs", .array (config.libraryDirs.map pathValue))]

end SuiteRunner.Config
