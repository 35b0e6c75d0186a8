/-
Module: RepoAtlas.Skeleton.Entities
Purpose: The ranked files grouped by top-level directory.
  Files in build and vendor directories are left out.  The largest group comes first; groups of one
  size stand in the order of their first files.
Main exports: Entity, isExcluded, topDirectory, entitiesOf
-/
import RepoAtlas.Ranking.Rank

namespace RepoAtlas.Skeleton

open Ranking

/-- A top-level directory, or the files outside every directory, with its files. -/
structure Entity where
  name : String
  path : String
  files : List String
deriving DecidableEq, Repr, Inhabited

/-- Directories that hold generated or foreign code. -/
def excludedDirectories : List String :=
  ["node_modules", ".git", "dist", "build", "out", ".next", ".nuxt", "coverage", "__pycache__",
    ".pytest_cache", "target", "vendor"]

/-- Whether a directory on the path holds generated or foreign code. -/
def isExcluded (path : String) : Bool :=
  (Text.splitText '/' path).dropLast.any excludedDirectories.contains

/-- The name of the entity of files outside every directory. -/
def rootEntity : String := "root"

/-- The name of the entity that a path belongs to. -/
def topDirectory (path : String) : String :=
  match Text.splitText '/' path with
  | top :: _ :: _ => if top = "" then rootEntity else top
  | _ => rootEntity

/-- The paths grouped by entity, entities in order of first appearance. -/
def grouped (paths : List String) : List (String × List String) :=
  (OrderedMap.collect topDirectory [] (fun members path => members ++ [path]) paths).entries

/-- The entity of a group. -/
def entityOf (group : String × List String) : Entity where
  name := group.1
  path := if group.1 = rootEntity then "" else group.1
  files := group.2

/-- The entities of the ranked files, largest first. -/
def entitiesOf (ranked : List RankedFile) : List Entity :=
  let paths := (ranked.map RankedFile.path).filter (fun path => !isExcluded path)
  ((grouped paths).map entityOf).mergeSort
    (fun first second => second.files.length ≤ first.files.length)

end RepoAtlas.Skeleton
