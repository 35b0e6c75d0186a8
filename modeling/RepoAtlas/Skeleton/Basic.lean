/-
Module: RepoAtlas.Skeleton.Basic
Purpose: The skeleton of a repository: what to read first, what to search for, and how its files
  are grouped.  It is the fixed ground on which descriptions are written.
Main exports: QuickPath, Skeleton, entityNames, quickPathsOf, build
-/
import RepoAtlas.Skeleton.Entities
import RepoAtlas.Skeleton.Patterns
import RepoAtlas.Skeleton.SearchPatterns

namespace RepoAtlas

open Ranking

namespace Skeleton

/-- A file to read early, and why. -/
structure QuickPath where
  path : String
  reason : String
deriving DecidableEq, Repr, Inhabited

end Skeleton

/-- The skeleton of a repository. -/
structure Skeleton where
  name : String
  repositoryPath : String
  quickPaths : List Skeleton.QuickPath
  searchPatterns : List Skeleton.SearchPattern
  entities : List Skeleton.Entity
  detectedPatterns : Skeleton.DetectedPatterns
deriving DecidableEq, Repr, Inhabited

namespace Skeleton

/-- The names of the entities. -/
def entityNames (skeleton : Skeleton) : List String :=
  skeleton.entities.map Entity.name

/-- How many quick paths are listed. -/
def quickPathLimit : Nat := 20

/-- What a role says about a file, if it is worth saying. -/
def roleLabel : Role → Option String
  | .entry => some "entry point"
  | .config => some "configuration"
  | .types => some "type definitions"
  | .test => some "test file"
  | .core => some "core implementation"
  | .util => none
  | .doc => none

/-- Why a file is worth reading. -/
def reason (file : RankedFile) : String :=
  let reasons := (roleLabel file.role).toList ++
    (if 0 < file.exportCount then [toString file.exportCount ++ " exports"] else []) ++
    (if 0 < file.functionCount then [toString file.functionCount ++ " functions"] else [])
  if reasons.isEmpty then "source file" else String.intercalate ", " reasons

/-- The most important files with the reasons to read them. -/
def quickPathsOf (ranked : List RankedFile) : List QuickPath :=
  (ranked.take quickPathLimit).map (fun file => ⟨file.path, reason file⟩)

/-- The skeleton of the discovered files. -/
def build (name repositoryPath : String) (ranked : List RankedFile) (files : FileMap) :
    Skeleton where
  name := name
  repositoryPath := repositoryPath
  quickPaths := quickPathsOf ranked
  searchPatterns := searchPatternsOf files
  entities := entitiesOf ranked
  detectedPatterns := detectPatterns files ranked

end Skeleton

end RepoAtlas
