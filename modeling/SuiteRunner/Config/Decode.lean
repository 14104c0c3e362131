import SuiteRunner.Config.Error
import SuiteRunner.Config.Layer
import SuiteRunner.Toml.Document

/-!
# From a TOML document to a layer

The keys of a document are visited in the order in which they stand there, and the first
one that does not fit is what is reported: an unknown key as soon as it is met, a value
of the wrong shape at its innermost part. A structure may also be written as the array
of its fields in order, and a date counts as a table with one key.
-/

namespace SuiteRunner.Config

open Substitution (Rule)
open Toml (Value)

abbrev Decoded (α : Type) : Type := Except LayerFault α

/-! ### How values are spoken of -/

/-- The key under which a date is visible to what expects a table. -/
def dateKey : String := "$__toml_private_datetime"

def describe : Value → String
  | .string text => "string " ++ Text.quoted text
  | .integer value => "integer " ++ inBackticks (toString value)
  | .float value => "floating point " ++ inBackticks value.text
  | .boolean value => "boolean " ++ inBackticks (toString value)
  | .dateTime _ => "map"
  | .array _ => "sequence"
  | .table _ => "map"

def mismatch {α : Type} (value : Value) (expected : String) : Decoded α :=
  .error (.invalidType (describe value) expected)

/-! ### Plain values -/

def text (expected : String) : Value → Decoded String
  | .string text => .ok text
  | value => mismatch value expected

def string : Value → Decoded String := text "a string"

def path (value : Value) : Decoded Path := (text "path string" value).map Path.ofText

def flag : Value → Decoded Bool
  | .boolean value => .ok value
  | value => mismatch value "a boolean"

def seconds : Value → Decoded UInt64
  | .integer value =>
    if 0 ≤ value then .ok (UInt64.ofNat value.toNat)
    else .error (.invalidValue (describe (.integer value)) "u64")
  | value => mismatch value "u64"

def list {α : Type} (item : Value → Decoded α) : Value → Decoded (List α)
  | .array items => items.mapM item
  | value => mismatch value "a sequence"

def map {α : Type} (item : Value → Decoded α) : Value → Decoded (Ordered.Table α)
  | .table entries =>
    (entries.mapM fun (entry : String × Value) => do
      return (entry.1, ← item entry.2)).map Ordered.Table.ofList
  | .dateTime text => do return .ofList [(dateKey, ← item (.string text))]
  | value => mismatch value "a map"

/-! ### Variables -/

/-- The strings of a list, if it holds nothing else. -/
def strings? : List Value → Option (List String)
  | [] => some []
  | .string text :: items => (strings? items).map (text :: ·)
  | _ :: _ => none

def setting : Value → Decoded Setting
  | .boolean value => .ok (.flag value)
  | .string text => .ok (.text text)
  | .array items =>
    match strings? items with
    | some items => .ok (.list items)
    | none => .error (.noVariant "Value")
  | _ => .error (.noVariant "Value")

/-! ### Structures -/

/-- What an array that is too short for a structure is blamed for. -/
def tooShort {α : Type} (length : Nat) (structureName : String) (fields : Nat) : Decoded α :=
  .error (.invalidLength length
    ("struct " ++ structureName ++ " with " ++ toString fields ++ " elements"))

def namingFields : List String := ["exe_suffix", "shlib_prefix", "shlib_ext"]

def NamingPart.set (naming : NamingPart) (key : String) (value : Value) : Decoded NamingPart :=
  match key with
  | "exe_suffix" => do return { naming with exeSuffix := some (← string value) }
  | "shlib_prefix" => do return { naming with shlibPrefix := some (← string value) }
  | "shlib_ext" => do return { naming with shlibExt := some (← string value) }
  | key => .error (.unknownField key namingFields)

def namingPart : Value → Decoded NamingPart
  | .table entries => entries.foldlM (fun naming (key, value) => naming.set key value) {}
  | .dateTime text => NamingPart.set {} dateKey (.string text)
  | .array items => do
    match items with
    | [] => tooShort 0 "PlatformNaming" 3
    | exeSuffix :: items =>
      let exeSuffix ← string exeSuffix
      match items with
      | [] => tooShort 1 "PlatformNaming" 3
      | shlibPrefix :: items =>
        let shlibPrefix ← string shlibPrefix
        match items with
        | [] => tooShort 2 "PlatformNaming" 3
        | shlibExt :: _ =>
          return ⟨some exeSuffix, some shlibPrefix, some (← string shlibExt)⟩
  | value => mismatch value "struct PlatformNaming"

/-- The fields of a rule met so far; other keys are passed over. -/
def ruleField (found : Option String × Option String) (key : String) (value : Value) :
    Decoded (Option String × Option String) :=
  match key with
  | "pattern" => do return (some (← string value), found.2)
  | "replacement" => do return (found.1, some (← string value))
  | _ => .ok found

def ruleOf : Option String × Option String → Decoded Rule
  | (none, _) => .error (.missingField "pattern")
  | (_, none) => .error (.missingField "replacement")
  | (some pattern, some replacement) => .ok ⟨pattern, replacement⟩

def rule : Value → Decoded Rule
  | .table entries => do
    ruleOf (← entries.foldlM (fun found (key, value) => ruleField found key value) (none, none))
  | .dateTime _ => ruleOf (none, none)
  | .array items => do
    match items with
    | [] => tooShort 0 "SubstitutionRule" 2
    | pattern :: items =>
      let pattern ← string pattern
      match items with
      | [] => tooShort 1 "SubstitutionRule" 2
      | replacement :: _ => return ⟨pattern, ← string replacement⟩
  | value => mismatch value "struct SubstitutionRule"

/-! ### Layers -/

def layerFields : List String :=
  ["name", "parent", "source_root", "exec_root", "target", "unsupported", "shell", "timeout",
   "platform", "vars", "env", "substitutions", "suffixes", "excludes", "features", "tools",
   "required_tools", "libraries", "tool_dirs", "library_dirs"]

/-- Take one key of the document into a layer, its paths still as they are written. -/
def Layer.set (layer : Layer) (key : String) (value : Value) : Decoded Layer :=
  match key with
  | "name" => do return { layer with name := some (← string value) }
  | "parent" => do return { layer with parent := some (← path value) }
  | "source_root" => do return { layer with sourceRoot := some (← path value) }
  | "exec_root" => do return { layer with execRoot := some (← path value) }
  | "target" => do return { layer with target := some (← string value) }
  | "unsupported" => do return { layer with unsupported := some (← flag value) }
  | "shell" => do return { layer with shell := some (← list string value) }
  | "timeout" => do return { layer with timeout := some (← seconds value) }
  | "platform" => do return { layer with naming := ← namingPart value }
  | "vars" => do return { layer with vars := ← map setting value }
  | "env" => do return { layer with env := ← map string value }
  | "substitutions" => do return { layer with substitutions := ← list rule value }
  | "suffixes" => do return { layer with suffixes := ← list string value }
  | "excludes" => do return { layer with excludes := ← list string value }
  | "features" => do return { layer with features := ← list string value }
  | "tools" => do return { layer with tools := ← list string value }
  | "required_tools" => do return { layer with requiredTools := ← list string value }
  | "libraries" => do return { layer with libraries := ← list string value }
  | "tool_dirs" => do return { layer with toolDirs := ← list path value }
  | "library_dirs" => do return { layer with libraryDirs := ← list path value }
  | key => .error (.unknownField key layerFields)

/-- A layer as its file says it, with the paths as they are written. -/
def Layer.decode (scope : Path) (source : String) : Decoded Layer :=
  match Toml.read source with
  | none => .error .notToml
  | some entries =>
    entries.foldlM (fun (layer : Layer) (key, value) => layer.set key value) { scope }

/-- Take all paths of a layer from the directory of its file. A parent is named by its
identity in the file tree. -/
def Layer.anchored (tree : Files.FileTree) (layer : Layer) : Layer :=
  let anchor := anchor layer.directory
  { layer with
    parent := layer.parent.map fun path => tree.key (anchor path)
    sourceRoot := layer.sourceRoot.map anchor
    execRoot := layer.execRoot.map anchor
    toolDirs := layer.toolDirs.map anchor
    libraryDirs := layer.libraryDirs.map anchor }

/-- Read the text of the layer file `scope`. -/
def Layer.parse (tree : Files.FileTree) (scope : Path) (source : String) :
    Except Error Layer :=
  match Layer.decode scope source with
  | .error fault => .error (.malformed scope fault)
  | .ok layer => .ok (layer.anchored tree)

end SuiteRunner.Config
