/-
Module: RepoAtlas.Prose.Consistency
Purpose: Whether prose speaks of the entities that the skeleton has.
  An entity without description is a warning; a description of, or a relationship with, something
  that is no entity is an error.
Main exports: End, Issue, Severity, Issue.severity, Issue.message, issues, passed
-/
import RepoAtlas.Prose.Basic
import RepoAtlas.Skeleton.Basic

namespace RepoAtlas.Prose

open Skeleton

/-- An end of a relationship. -/
inductive End where
  | source
  | target
deriving DecidableEq, Repr, Inhabited

/-- The word for an end of a relationship. -/
def End.word : End → String
  | .source => "from"
  | .target => "to"

/-- A disagreement between prose and skeleton. -/
inductive Issue where
  /-- An entity has no description. -/
  | missingDescription (entity : String)
  /-- A description is of no entity. -/
  | orphanedReference (name : String)
  /-- An end of a relationship is no entity. -/
  | invalidRelationship (position : End) (name : String)
deriving DecidableEq, Repr, Inhabited

/-- How grave an issue is. -/
inductive Severity where
  | error
  | warning
deriving DecidableEq, Repr, Inhabited

/-- The word for a severity. -/
def Severity.word : Severity → String
  | .error => "error"
  | .warning => "warning"

namespace Issue

/-- The word for the kind of an issue. -/
def word : Issue → String
  | .missingDescription _ => "missing_description"
  | .orphanedReference _ => "orphaned_reference"
  | .invalidRelationship _ _ => "invalid_relationship"

/-- How grave the issue is. -/
def severity : Issue → Severity
  | .missingDescription _ => .warning
  | .orphanedReference _ => .error
  | .invalidRelationship _ _ => .error

/-- The sentence for the issue. -/
def message : Issue → String
  | .missingDescription entity => "Entity \"" ++ entity ++ "\" is missing a description"
  | .orphanedReference name =>
    "Description provided for non-existent entity \"" ++ name ++ "\""
  | .invalidRelationship position name =>
    "Relationship \"" ++ position.word ++ "\" references non-existent entity \"" ++ name ++ "\""

end Issue

/-- The description of an entity, unless it is missing or empty. -/
def description? (prose : Prose) (entity : String) : Option String :=
  (prose.descriptions.get? entity).filter (· ≠ "")

/-- The entities without description. -/
def missingDescriptions (skeleton : Skeleton) (prose : Prose) : List Issue :=
  (skeleton.entityNames.filter (fun name => (description? prose name).isNone)).map
    .missingDescription

/-- The descriptions of no entity. -/
def orphanedReferences (skeleton : Skeleton) (prose : Prose) : List Issue :=
  (prose.descriptions.keys.filter (fun name => !skeleton.entityNames.contains name)).map
    .orphanedReference

/-- The ends of a relationship that are no entities. -/
def invalidEnds (skeleton : Skeleton) (relationship : Relationship) : List Issue :=
  ([(End.source, relationship.source), (End.target, relationship.target)].filter
    (fun (_, name) => !skeleton.entityNames.contains name)).map
    (fun (position, name) => .invalidRelationship position name)

/-- All issues: missing descriptions in order of entities, then orphaned descriptions, then invalid
relationships. -/
def issues (skeleton : Skeleton) (prose : Prose) : List Issue :=
  missingDescriptions skeleton prose ++ orphanedReferences skeleton prose ++
    prose.relationships.flatMap (invalidEnds skeleton)

/-- The issues of one severity. -/
def issuesOf (severity : Severity) (issues : List Issue) : List Issue :=
  issues.filter (fun issue => issue.severity = severity)

/-- Whether no issue is an error. -/
def passed (issues : List Issue) : Bool :=
  (issuesOf .error issues).isEmpty

end RepoAtlas.Prose
