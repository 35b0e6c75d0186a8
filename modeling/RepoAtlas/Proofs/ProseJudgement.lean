/-
Module: RepoAtlas.Proofs.ProseJudgement
Purpose: The report on prose and the skill made of it judge the prose alike.
  Both ask on their own whether a name is that of an entity and whether an entity is described.  What
  is left out of the skill is what the report complains of, and what the skill makes up is what the
  report warns of.
Main exports: endNames, complaints, Describes, JudgedAlike, issuesOf_issues, passed_issues_iff,
  isValid_iff_no_complaint, describes_describe, judgedAlike_merge
-/
import RepoAtlas.Proofs.OrderedMapLaws
import RepoAtlas.Prose.Skill
import Mathlib.Data.List.Forall2

namespace RepoAtlas.Prose

open Skeleton

/-- The names at both ends of all relationships. -/
def endNames (relationships : List Relationship) : List String :=
  relationships.flatMap (fun relationship => [relationship.source, relationship.target])

/-- The name at an end of a relationship. -/
def Relationship.nameAt (relationship : Relationship) : End → String
  | .source => relationship.source
  | .target => relationship.target

/-- What a report can say against a relationship. -/
def complaints (relationship : Relationship) : List Issue :=
  [End.source, End.target].map
    (fun position => .invalidRelationship position (relationship.nameAt position))

/-- How an entity of a skeleton appears in a skill, given what was reported. -/
inductive Describes (prose : Prose) (issues : List Issue) (entity : Entity) :
    DescribedEntity → Prop where
  /-- The description was reported as missing, and the size of the entity stands for it. -/
  | bySize (reported : .missingDescription entity.name ∈ issues) :
      Describes prose issues entity
        ⟨entity.name, if entity.path = "" then "." else entity.path,
          "Directory containing " ++ toString entity.files.length ++ " files"⟩
  /-- Nothing was reported, and the entity has the text of the prose. -/
  | byText {text : String} (unreported : .missingDescription entity.name ∉ issues)
      (given : prose.descriptions.get? entity.name = some text) (filled : text ≠ "") :
      Describes prose issues entity
        ⟨entity.name, if entity.path = "" then "." else entity.path, text⟩

/-- Whether a report on prose and a skill made of it agree.  The report passes prose that speaks of
entities only, and has one error for each description and each end of a relationship that does not.
The skill keeps the relationships that the report has nothing against.  Entities stay in their order,
and the report warns, entity by entity, of those without a text of their own. -/
structure JudgedAlike (skeleton : Skeleton) (prose : Prose) (issues : List Issue) (skill : Skill) :
    Prop where
  passed_iff : passed issues = true ↔
    (∀ name ∈ prose.descriptions.keys, name ∈ skeleton.entityNames) ∧
      ∀ relationship ∈ prose.relationships, relationship.source ∈ skeleton.entityNames ∧
        relationship.target ∈ skeleton.entityNames
  error_count : (issuesOf .error issues).length =
    (prose.descriptions.keys.filter (fun name => name ∉ skeleton.entityNames)).length +
      ((endNames prose.relationships).filter (fun name => name ∉ skeleton.entityNames)).length
  relationships_eq : skill.relationships = prose.relationships.filter (fun relationship =>
    ∀ complaint ∈ complaints relationship, complaint ∉ issues)
  relationships_of_passed : passed issues = true → skill.relationships = prose.relationships
  warnings_eq : issuesOf .warning issues =
    (skeleton.entities.filter (fun entity =>
      (prose.descriptions.get? entity.name).getD "" = "")).map
        (fun entity => .missingDescription entity.name)
  entities_described : List.Forall₂ (Describes prose issues) skeleton.entities skill.entities

variable {skeleton : Skeleton} {prose : Prose}

/-! ### The issues of one severity -/

/-- Issues that are all equally grave are taken together or not at all. -/
theorem issuesOf_of_severity {reported : List Issue} {own : Severity}
    (alike : ∀ issue ∈ reported, issue.severity = own) (severity : Severity) :
    issuesOf severity reported = if own = severity then reported else [] := by
  rw [issuesOf]
  split
  · next same =>
    rw [List.filter_eq_self]
    intro issue listed
    simp [alike issue listed, same]
  · next other =>
    rw [List.filter_eq_nil_iff]
    intro issue listed
    simp [alike issue listed, other]

theorem severity_of_mem_missingDescriptions :
    ∀ issue ∈ missingDescriptions skeleton prose, issue.severity = .warning := by
  intro issue reported
  obtain ⟨name, _, rfl⟩ := List.mem_map.1 reported
  rfl

theorem severity_of_mem_orphanedReferences :
    ∀ issue ∈ orphanedReferences skeleton prose, issue.severity = .error := by
  intro issue reported
  obtain ⟨name, _, rfl⟩ := List.mem_map.1 reported
  rfl

theorem severity_of_mem_invalidEnds :
    ∀ issue ∈ prose.relationships.flatMap (invalidEnds skeleton), issue.severity = .error := by
  intro issue reported
  obtain ⟨relationship, _, here⟩ := List.mem_flatMap.1 reported
  obtain ⟨_, _, rfl⟩ := List.mem_map.1 here
  rfl

/-- Missing descriptions are the warnings, and all else is an error. -/
theorem issuesOf_issues (skeleton : Skeleton) (prose : Prose) (severity : Severity) :
    issuesOf severity (issues skeleton prose) =
      match severity with
      | .warning => missingDescriptions skeleton prose
      | .error => orphanedReferences skeleton prose ++
          prose.relationships.flatMap (invalidEnds skeleton) := by
  have parts : issuesOf severity (issues skeleton prose) =
      issuesOf severity (missingDescriptions skeleton prose) ++
        issuesOf severity (orphanedReferences skeleton prose) ++
        issuesOf severity (prose.relationships.flatMap (invalidEnds skeleton)) := by
    simp only [issuesOf, issues, List.filter_append]
  rw [parts, issuesOf_of_severity severity_of_mem_missingDescriptions,
    issuesOf_of_severity severity_of_mem_orphanedReferences,
    issuesOf_of_severity severity_of_mem_invalidEnds]
  cases severity <;> simp

/-! ### Errors -/

theorem length_orphanedReferences (skeleton : Skeleton) (prose : Prose) :
    (orphanedReferences skeleton prose).length =
      (prose.descriptions.keys.filter (fun name => name ∉ skeleton.entityNames)).length := by
  simp [orphanedReferences, List.contains_eq_mem]

/-- Each end of a relationship is counted by itself. -/
theorem length_invalidEnds (skeleton : Skeleton) (relationships : List Relationship) :
    (relationships.flatMap (invalidEnds skeleton)).length =
      ((endNames relationships).filter (fun name => name ∉ skeleton.entityNames)).length := by
  have both (relationship : Relationship) : (invalidEnds skeleton relationship).length =
      ([relationship.source, relationship.target].filter
        (fun name => name ∉ skeleton.entityNames)).length := by
    by_cases source : relationship.source ∈ skeleton.entityNames <;>
      by_cases target : relationship.target ∈ skeleton.entityNames <;>
      simp [invalidEnds, source, target]
  simp only [endNames, List.filter_flatMap, List.length_flatMap, both]

/-- Prose passes exactly when it speaks of entities only. -/
theorem passed_issues_iff : passed (issues skeleton prose) = true ↔
    (∀ name ∈ prose.descriptions.keys, name ∈ skeleton.entityNames) ∧
      ∀ relationship ∈ prose.relationships, relationship.source ∈ skeleton.entityNames ∧
        relationship.target ∈ skeleton.entityNames := by
  have described : orphanedReferences skeleton prose = [] ↔
      ∀ name ∈ prose.descriptions.keys, name ∈ skeleton.entityNames := by
    simp [orphanedReferences]
  have related (relationship : Relationship) : invalidEnds skeleton relationship = [] ↔
      relationship.source ∈ skeleton.entityNames ∧
        relationship.target ∈ skeleton.entityNames := by
    simp [invalidEnds]
  rw [passed, issuesOf_issues, List.isEmpty_iff, List.append_eq_nil_iff, described,
    List.flatMap_eq_nil_iff]
  simp only [related]

/-! ### Relationships -/

/-- An end of a relationship is invalid exactly when it is no entity. -/
theorem invalidRelationship_mem_invalidEnds_iff (relationship : Relationship) (position : End)
    (name : String) :
    .invalidRelationship position name ∈ invalidEnds skeleton relationship ↔
      relationship.nameAt position = name ∧ name ∉ skeleton.entityNames := by
  simp only [invalidEnds, List.mem_map, List.mem_filter, List.mem_cons, List.not_mem_nil, or_false,
    Bool.not_eq_true', Bool.eq_false_iff, ne_eq, List.contains_iff_mem]
  constructor
  · rintro ⟨_, ⟨rfl | rfl, unknown⟩, same⟩
    · cases same
      exact ⟨rfl, unknown⟩
    · cases same
      exact ⟨rfl, unknown⟩
  · rintro ⟨rfl, unknown⟩
    cases position with
    | source => exact ⟨_, ⟨.inl rfl, unknown⟩, rfl⟩
    | target => exact ⟨_, ⟨.inr rfl, unknown⟩, rfl⟩

/-- An end is reported as invalid exactly when a relationship has it and it is no entity. -/
theorem invalidRelationship_mem_issues_iff (position : End) (name : String) :
    .invalidRelationship position name ∈ issues skeleton prose ↔
      (∃ relationship ∈ prose.relationships, relationship.nameAt position = name) ∧
        name ∉ skeleton.entityNames := by
  simp only [issues, missingDescriptions, orphanedReferences, List.mem_append, List.mem_map,
    List.mem_flatMap, invalidRelationship_mem_invalidEnds_iff, reduceCtorEq, and_false, exists_false,
    false_or, ← and_assoc, exists_and_right]

/-- A relationship is valid exactly when nothing is reported against it.  What is reported of another
relationship with the same name at the same end counts against this one too, and rightly so. -/
theorem isValid_iff_no_complaint {relationship : Relationship}
    (listed : relationship ∈ prose.relationships) :
    isValid skeleton relationship = true ↔
      ∀ complaint ∈ complaints relationship, complaint ∉ issues skeleton prose := by
  have reported (position : End) :
      .invalidRelationship position (relationship.nameAt position) ∈ issues skeleton prose ↔
        relationship.nameAt position ∉ skeleton.entityNames := by
    rw [invalidRelationship_mem_issues_iff]
    exact and_iff_right ⟨relationship, listed, rfl⟩
  simp only [complaints, List.forall_mem_map, List.forall_mem_cons, reported, not_not,
    List.not_mem_nil, false_implies, implies_true, and_true, isValid, Bool.and_eq_true,
    List.contains_iff_mem]
  rfl

theorem relationships_merge_of_passed (ok : passed (issues skeleton prose) = true) :
    (merge skeleton prose).relationships = prose.relationships := by
  have known := (passed_issues_iff.1 ok).2
  apply List.filter_eq_self.2
  intro relationship listed
  simpa [isValid] using known relationship listed

/-! ### Entities -/

theorem description?_eq_none_iff (name : String) :
    description? prose name = none ↔ (prose.descriptions.get? name).getD "" = "" := by
  cases given : prose.descriptions.get? name with
  | none => simp [description?, given]
  | some text => simp [description?, given, Option.filter_eq_none_iff]

theorem missingDescriptions_eq (skeleton : Skeleton) (prose : Prose) :
    missingDescriptions skeleton prose =
      (skeleton.entities.filter (fun entity =>
        (prose.descriptions.get? entity.name).getD "" = "")).map
          (fun entity => .missingDescription entity.name) := by
  have alike : (fun name => (description? prose name).isNone) ∘ Entity.name =
      (fun entity => decide ((prose.descriptions.get? entity.name).getD "" = "")) := by
    funext entity
    rw [Function.comp_apply, Bool.eq_iff_iff, Option.isNone_iff_eq_none, description?_eq_none_iff,
      decide_eq_true_eq]
  rw [missingDescriptions, entityNames, List.filter_map, alike, List.map_map]
  rfl

/-- An entity is reported as not described exactly when there is no text for its name. -/
theorem missingDescription_mem_issues_iff (prose : Prose) {entity : Entity}
    (listed : entity ∈ skeleton.entities) :
    .missingDescription entity.name ∈ issues skeleton prose ↔
      description? prose entity.name = none := by
  have named : entity.name ∈ skeleton.entityNames := List.mem_map_of_mem listed
  simp [issues, missingDescriptions, orphanedReferences, invalidEnds, named]

theorem describes_describe {entity : Entity} (listed : entity ∈ skeleton.entities) :
    Describes prose (issues skeleton prose) entity (describe prose entity) := by
  have reported := missingDescription_mem_issues_iff prose listed
  rw [describe]
  cases told : description? prose entity.name with
  | none => exact .bySize (reported.2 told)
  | some text =>
    obtain ⟨given, filled⟩ := Option.filter_eq_some_iff.1 told
    refine .byText ?_ given (by simpa using filled)
    rw [reported, told]
    exact Option.some_ne_none text

/-- The report on prose and the skill made of it agree, whatever the skeleton and the prose. -/
theorem judgedAlike_merge (skeleton : Skeleton) (prose : Prose) :
    JudgedAlike skeleton prose (issues skeleton prose) (merge skeleton prose) where
  passed_iff := passed_issues_iff
  error_count := by
    rw [issuesOf_issues, List.length_append, length_orphanedReferences, length_invalidEnds]
  relationships_eq := by
    apply List.filter_congr
    intro relationship listed
    rw [Bool.eq_iff_iff, decide_eq_true_eq]
    exact isValid_iff_no_complaint listed
  relationships_of_passed := relationships_merge_of_passed
  warnings_eq := by rw [issuesOf_issues, missingDescriptions_eq]
  entities_described := by
    rw [merge, List.forall₂_map_right_iff, List.forall₂_same]
    exact fun entity listed => describes_describe listed

end RepoAtlas.Prose
