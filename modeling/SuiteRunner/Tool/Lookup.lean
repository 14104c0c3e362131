import SuiteRunner.Files.Tree

/-!
# Looking up tools and libraries

A tool or library is named by its plain name; the platform adds what its file is called
with. The directories are searched in order, and the first file that can be used is
taken: any file for a library, an executable one for a tool.
-/

namespace SuiteRunner.Tool

open Files

inductive Kind where
  | executable
  | library
  deriving DecidableEq, Repr

/-- How the platform names the files of tools and libraries. -/
structure Naming where
  exeSuffix : String := ""
  shlibPrefix : String := "lib"
  shlibExt : String := ".so"
  deriving DecidableEq, Repr

structure NotFound where
  kind : Kind
  name : String
  searched : List Path
  deriving DecidableEq, Repr

def Kind.noun : Kind → String
  | executable => "tool"
  | library => "library"

def NotFound.message (missing : NotFound) : String :=
  let searched :=
    if missing.searched.isEmpty then "no directories configured"
    else ", ".intercalate (missing.searched.map Path.shown)
  missing.kind.noun ++ " `" ++ missing.name ++ "` not found (searched: " ++ searched ++ ")"

namespace Naming

def executableName (naming : Naming) (name : String) : String := name ++ naming.exeSuffix

def libraryName (naming : Naming) (name : String) : String :=
  naming.shlibPrefix ++ name ++ naming.shlibExt

end Naming

/-- The first of the directories that holds an accepted file of this name. -/
def search (accepts : Path → Bool) (directories : List Path) (fileName : String) : Option Path :=
  (directories.map (·.child fileName)).find? accepts

/-- Where a lookup searches. -/
structure Places where
  toolDirs : List Path
  libraryDirs : List Path
  naming : Naming
  deriving DecidableEq, Repr

namespace Places

def tool (places : Places) (tree : FileTree) (name : String) : Except NotFound Path :=
  match search tree.isExecutable places.toolDirs (Text.pack (places.naming.executableName name)) with
  | some path => .ok path
  | none => .error ⟨.executable, name, places.toolDirs⟩

def library (places : Places) (tree : FileTree) (name : String) : Except NotFound Path :=
  match search tree.isFile places.libraryDirs (Text.pack (places.naming.libraryName name)) with
  | some path => .ok path
  | none => .error ⟨.library, name, places.libraryDirs⟩

end Places

end SuiteRunner.Tool
