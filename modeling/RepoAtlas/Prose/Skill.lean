/-
Module: RepoAtlas.Prose.Skill
Purpose: A skeleton together with the prose written for it.
  Paths begin with a placeholder for the place of the repository.  An entity without description is
  described by its size, and a relationship with something that is no entity is left out.
Main exports: Skill, placeholder, merge
-/
import RepoAtlas.Prose.Consistency

namespace RepoAtlas.Prose

open Skeleton

/-- An entity with its description. -/
structure DescribedEntity where
  name : String
  path : String
  description : String
deriving DecidableEq, Repr, Inhabited

/-- A file to read early with its description. -/
structure DescribedPath where
  path : String
  description : String
deriving DecidableEq, Repr, Inhabited

/-- A skeleton together with its prose. -/
structure Skill where
  name : String
  description : String
  quickPaths : List DescribedPath
  searchPatterns : List SearchPattern
  entities : List DescribedEntity
  relationships : List Relationship
  keyFiles : List String
  whenToUse : List String
deriving DecidableEq, Repr, Inhabited

/-- What stands for the place of the repository. -/
def placeholder : String := "$\x7bREPO\x7d"

/-- How many key files are listed. -/
def keyFileLimit : Nat := 10

/-- A path under the place of the repository. -/
def placed (path : String) : String :=
  placeholder ++ "/" ++ path

/-- What is said of an entity without description. -/
def sizeDescription (entity : Entity) : String :=
  "Directory containing " ++ toString entity.files.length ++ " files"

/-- An entity with its description. -/
def describe (prose : Prose) (entity : Entity) : DescribedEntity where
  name := entity.name
  path := if entity.path = "" then "." else entity.path
  description := (description? prose entity.name).getD (sizeDescription entity)

/-- A search pattern with its scope under the place of the repository. -/
def placedPattern (pattern : SearchPattern) : SearchPattern where
  pattern := pattern.pattern
  scope := some (((pattern.scope.filter (· ≠ "")).map placed).getD placeholder)

/-- Whether both ends of a relationship are entities. -/
def isValid (skeleton : Skeleton) (relationship : Relationship) : Bool :=
  skeleton.entityNames.contains relationship.source &&
    skeleton.entityNames.contains relationship.target

/-- The skeleton together with its prose. -/
def merge (skeleton : Skeleton) (prose : Prose) : Skill where
  name := skeleton.name
  description := prose.summary
  quickPaths := skeleton.quickPaths.map (fun quick => ⟨placed quick.path, quick.reason⟩)
  searchPatterns := skeleton.searchPatterns.map placedPattern
  entities := skeleton.entities.map (describe prose)
  relationships := prose.relationships.filter (isValid skeleton)
  keyFiles := (skeleton.quickPaths.take keyFileLimit).map QuickPath.path
  whenToUse := prose.whenToUse

end RepoAtlas.Prose
