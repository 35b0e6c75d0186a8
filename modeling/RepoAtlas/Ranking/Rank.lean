/-
Module: RepoAtlas.Ranking.Rank
Purpose: The files of an import graph in order of importance.
Main exports: RankedFile, rankedFile, rank
-/
import RepoAtlas.Imports.Graph
import RepoAtlas.Ranking.Score

namespace RepoAtlas.Ranking

open Imports

/-- A file with its importance and role. -/
structure RankedFile where
  path : String
  importance : Importance
  role : Role
  /-- The specifiers of the file, absent when it has none. -/
  imports? : Option (List String) := none
  exportCount : Nat := 0
  functionCount : Nat := 0
deriving DecidableEq, Repr, Inhabited

/-- A file of the graph with the counts of its outline, if outlines are at hand. -/
def rankedFile (maxInDegree : Nat) (outline : Option Outline) (node : Node) : RankedFile :=
  let role := Role.ofPath node.path
  { path := node.path
    importance := Importance.ofScore (score node.inDegree maxInDegree role)
    role := role
    imports? := if node.imports.isEmpty then none else some node.imports
    exportCount := (outline.map Outline.exportCount).getD 0
    functionCount := (outline.map (fun outline => outline.functions.length)).getD 0 }

/-- Files with the most important first; equals keep their order. -/
def byImportance (files : List RankedFile) : List RankedFile :=
  files.mergeSort (fun first second =>
    second.importance.thousandths ≤ first.importance.thousandths)

/-- All files of a graph, most important first, equals in discovery order.  Without `files` the
counts are zero. -/
def rank (graph : Graph) (files : Option FileMap) : List RankedFile :=
  let outlineOf (path : String) : Option Outline := (files.bind (·.get? path)).join
  byImportance (graph.nodes.values.map
    (fun node => rankedFile graph.maxInDegree (outlineOf node.path) node))

end RepoAtlas.Ranking
