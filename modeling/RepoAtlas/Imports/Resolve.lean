/-
Module: RepoAtlas.Imports.Resolve
Purpose: Which discovered file a relative import specifier means.
  The specifier is followed from the directory of the importing file.  A path that leaves the
  repository means nothing; otherwise the path itself, the path with each source extension, and the
  index files of the directory are tried in that order.
Main exports: isRelative, extensions, indexFiles, targetPath, candidates, resolve
-/
import RepoAtlas.Path

namespace RepoAtlas.Imports

open Text

/-- Whether a specifier is relative to the importing file. -/
def isRelative (specifier : String) : Bool :=
  specifier = "." || specifier = ".." || startsWith specifier "./" || startsWith specifier "../"

/-- The extensions that an import may leave out. -/
def extensions : List String :=
  [".ts", ".tsx", ".js", ".jsx", ".mts", ".mjs", ".cjs", ".py"]

/-- The files that stand for their directory. -/
def indexFiles : List String :=
  ["index.ts", "index.tsx", "index.js", "index.jsx", "index.mjs", "__init__.py"]

/-- The path that a relative specifier points at, seen from the importing file. -/
def targetPath (specifier importer : String) : String :=
  Path.normalize (Path.join (Path.directory importer) specifier)

/-- Whether a normal path lies outside the repository. -/
def leavesRepository (path : String) : Bool :=
  path = ".." || startsWith path "../"

/-- The files a path may mean, most specific first.  The root of the repository has only index
files. -/
def candidates (path : String) : List String :=
  if path = "." then indexFiles
  else path :: extensions.map (path ++ ·) ++ indexFiles.map (path ++ "/" ++ ·)

/-- The file among the known ones that a specifier means. -/
def resolve (specifier importer : String) (known : List String) : Option String :=
  if isRelative specifier then
    let path := targetPath specifier importer
    if leavesRepository path then none else (candidates path).find? known.contains
  else none

end RepoAtlas.Imports
