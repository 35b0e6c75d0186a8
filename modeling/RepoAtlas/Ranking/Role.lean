/-
Module: RepoAtlas.Ranking.Role
Purpose: What a file is for, judged by its path alone.
  The rules look at the file name and the directory in lower case; the first that applies decides.
Main exports: Role, Role.word, Role.ofPath
-/
import RepoAtlas.Path
import RepoAtlas.Text.Lowercase

namespace RepoAtlas.Ranking

open Text

/-- The purpose of a file. -/
inductive Role where
  | entry
  | config
  | types
  | test
  | util
  | doc
  | core
deriving DecidableEq, Repr, Inhabited

namespace Role

/-- The word for a role. -/
def word : Role → String
  | .entry => "entry"
  | .config => "config"
  | .types => "types"
  | .test => "test"
  | .util => "util"
  | .doc => "doc"
  | .core => "core"

/-- Files that a program or package starts from. -/
def entryFiles : List String :=
  ["index.ts", "index.tsx", "index.js", "main.ts", "main.py", "main.go", "lib.rs", "mod.rs",
    "__init__.py", "__main__.py"]

/-- Configuration files that do not say so in their name. -/
def configFiles : List String := ["tsconfig.json", "package.json", "pyproject.toml"]

/-- Files that hold type definitions. -/
def typesFiles : List String := ["types.ts", "types.tsx", "types.py"]

/-- File names, up to the first dot, of helpers. -/
def utilStems : List String := ["util", "utils", "helpers"]

/-- The rules in order: a role and what the lowercased name and directory must satisfy. -/
def rules : List (Role × (String → String → Bool)) := [
  (.entry, fun name _ => entryFiles.contains name),
  (.config, fun name _ => occursIn "config" name || configFiles.contains name),
  (.types, fun name directory =>
    endsWith name ".d.ts" || endsWith name ".pyi" || typesFiles.contains name ||
      occursIn "types" directory || occursIn "interfaces" directory),
  (.test, fun name directory =>
    occursIn ".test." name || occursIn ".spec." name || occursIn "_test." name ||
      startsWith name "test_" || name = "conftest.py" || occursIn "test" directory),
  (.util, fun name directory =>
    utilStems.contains (before '.' name) || occursIn "util" directory ||
      occursIn "helper" directory),
  (.doc, fun name directory =>
    endsWith name ".md" || endsWith name ".rst" || occursIn "docs" directory)]

/-- The role of a file. -/
def ofPath (path : String) : Role :=
  let lowered := lowerText path
  let name := Path.fileName lowered
  let directory := Path.directory lowered
  ((rules.find? (fun rule => rule.2 name directory)).map Prod.fst).getD .core

end Role

end RepoAtlas.Ranking
