/-
Module: RepoAtlas.Toon.Document
Purpose: A survey in token-oriented notation: a few fields, then one table for each list.
Main exports: Table, Table.render, fieldLine, tables, encode
-/
import RepoAtlas.Analysis.Survey
import RepoAtlas.Toon.Scalar

namespace RepoAtlas.Toon

open Ranking

/-- A named list of rows with the same columns. -/
structure Table where
  name : String
  columns : List String
  rows : List (List String)
deriving DecidableEq, Repr, Inhabited

/-- The line above the rows: name, number of rows and columns. -/
def Table.heading (table : Table) : String :=
  table.name ++ "[" ++ toString table.rows.length ++ "]\x7b" ++
    String.intercalate "," table.columns ++ "\x7d:"

/-- The line of a row. -/
def rowLine (row : List String) : String :=
  "  " ++ String.intercalate "," (row.map encodeValue)

/-- The heading and the rows. -/
def Table.render (table : Table) : String :=
  String.intercalate "\n" (table.heading :: table.rows.map rowLine)

/-- The word for a truth value. -/
def truthWord (value : Bool) : String :=
  if value then "true" else "false"

/-- The lines of the fields. -/
def fieldLines (survey : Survey) : List String :=
  let patterns := survey.skeleton.detectedPatterns
  let framework := ((patterns.framework.filter (· ≠ "")).map encodeValue).getD "null"
  ["repo: " ++ encodeValue survey.name,
    "language: " ++ encodeValue patterns.language,
    "framework: " ++ framework,
    "has_tests: " ++ truthWord patterns.hasTests,
    "has_docs: " ++ truthWord patterns.hasDocs]

/-- The ranked files to list.  No limit and a limit of zero list all of them; a negative limit leaves
out as many at the end. -/
def listedFiles (limit : Option Int) (ranked : List RankedFile) : List RankedFile :=
  match limit with
  | none => ranked
  | some bound => if bound = 0 then ranked else Text.takeBound bound ranked

/-- The table of ranked files. -/
def filesTable (ranked : List RankedFile) : Table where
  name := "files"
  columns := ["path", "role", "importance", "exports", "functions"]
  rows := ranked.map (fun file =>
    [file.path, file.role.word, file.importance.fixedText, toString file.exportCount,
      toString file.functionCount])

/-- The table of hubs. -/
def hubsTable (graph : Imports.Graph) : Table where
  name := "hubs"
  columns := ["path", "importers"]
  rows := graph.hubs.map (fun hub => [hub.path, toString hub.inDegree])

/-- The table of imports. -/
def dependenciesTable (graph : Imports.Graph) : Table where
  name := "dependencies"
  columns := ["source", "target"]
  rows := graph.edges.map (fun edge => [edge.source, edge.target])

/-- The table of files to read early. -/
def quickPathsTable (skeleton : Skeleton) : Table where
  name := "quick_paths"
  columns := ["path", "reason"]
  rows := skeleton.quickPaths.map (fun quick => [quick.path, quick.reason])

/-- The table of names to search for. -/
def searchPatternsTable (skeleton : Skeleton) : Table where
  name := "search_patterns"
  columns := ["pattern", "scope"]
  rows := skeleton.searchPatterns.map (fun search => [search.pattern, search.scope.getD ""])

/-- The table of entities. -/
def entitiesTable (skeleton : Skeleton) : Table where
  name := "entities"
  columns := ["name", "path", "files"]
  rows := skeleton.entities.map (fun entity =>
    [entity.name, entity.path, toString entity.files.length])

/-- The tables of a survey in order. -/
def tables (survey : Survey) (limit : Option Int) : List Table :=
  [filesTable (listedFiles limit survey.ranked), hubsTable survey.imports,
    dependenciesTable survey.imports, quickPathsTable survey.skeleton,
    searchPatternsTable survey.skeleton, entitiesTable survey.skeleton]

/-- A survey in the notation. -/
def encode (survey : Survey) (limit : Option Int) : String :=
  String.intercalate "\n" (fieldLines survey ++ (tables survey limit).map Table.render)

end RepoAtlas.Toon
