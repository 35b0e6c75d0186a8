/-
Module: RepoAtlas.Diagram.Chains
Purpose: The layers of a repository as a chain, and inheritance as a class diagram.
Main exports: renderLayers, Inheritance, renderInheritance
-/
import RepoAtlas.Architecture.Graph

namespace RepoAtlas.Diagram

open Architecture

/-- A layer and its files. -/
structure LayerGroup where
  layer : Layer
  files : List String
deriving DecidableEq, Repr, Inhabited

/-- That a class inherits from another. -/
structure Inheritance where
  child : String
  childFile : String := ""
  parent : String
  parentFile : String := ""
  relation : Relation
deriving DecidableEq, Repr, Inhabited

/-- The non-empty layers from the outermost to the innermost; equals keep their order. -/
def orderedLayers (groups : List LayerGroup) : List LayerGroup :=
  (groups.filter (fun group => !group.files.isEmpty)).mergeSort
    (fun first second => first.layer.index ≤ second.layer.index)

/-- The layers as a chain from the outermost to the innermost. -/
def renderLayers (groups : List LayerGroup) : String :=
  let ordered := orderedLayers groups
  let declarations := ordered.map (fun group =>
    "    " ++ group.layer.word ++ "[\"" ++ group.layer.word ++ " (" ++
      toString group.files.length ++ " files)\"]")
  let links := (ordered.zip (ordered.drop 1)).map (fun (upper, lower) =>
    "    " ++ upper.layer.word ++ " --> " ++ lower.layer.word)
  String.intercalate "\n" ("flowchart TB" :: declarations ++ links)

/-- The line of an inheritance relation. -/
def inheritanceLine (relation : Inheritance) : String :=
  let arrow := if relation.relation = .extends then "<|--" else "<|.."
  "    " ++ relation.parent ++ " " ++ arrow ++ " " ++ relation.child

/-- Inheritance relations as a class diagram, each line once; nothing when there are none. -/
def renderInheritance (relations : List Inheritance) : String :=
  if relations.isEmpty then ""
  else String.intercalate "\n" ("classDiagram" :: (relations.map inheritanceLine).eraseDups)

end RepoAtlas.Diagram
