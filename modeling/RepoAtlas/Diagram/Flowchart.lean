/-
Module: RepoAtlas.Diagram.Flowchart
Purpose: The architecture graph as a top-down flowchart.
  Hubs and files with exported names are drawn, up to a bound, on request in one group per layer.
  Each relation between two different drawn files is drawn once.
Main exports: identifier, label, arrow, significant, groups, drawnEdges, render
-/
import RepoAtlas.Architecture.Graph

namespace RepoAtlas.Diagram

open Architecture Text

/-- Whether a character may stand in an identifier of a diagram. -/
def isIdentifierChar (char : Char) : Bool :=
  char.isAlphanum

/-- The identifier of a path: letters and digits in lower case, everything else an underscore, none
of them at the ends; `node` when nothing is left. -/
def identifier (path : String) : String :=
  let replaced := path.toList.map (fun char => if isIdentifierChar char then char else '_')
  let trimmed := dropEndWhile (· == '_') (replaced.dropWhile (· == '_'))
  if trimmed.isEmpty then "node" else String.ofList (trimmed.map Char.toLower)

/-- The label of a file: its name and up to two of its exported names. -/
def label (node : Node) : String :=
  let name := Path.fileName node.path
  let name := if name = "" then node.path else name
  let shown := String.intercalate ", " (node.symbols.take 2)
  if node.symbols.isEmpty then name
  else if node.symbols.length ≤ 2 then name ++ "\\n" ++ shown
  else name ++ "\\n" ++ shown ++ "..."

/-- The arrow of a relation. -/
def arrow : Relation → String
  | .imports => "-->"
  | .extends => "--|>"
  | .implements => "..|>"
  | .exports => "-->"
  | .reexports => "-.->"

/-- The declaration of a file. -/
def declaration (node : Node) : String :=
  identifier node.path ++ "[\"" ++ label node ++ "\"]"

/-- The files to draw, up to a bound that may count from the end. -/
def significant (bound : Int) (nodes : List Node) : List Node :=
  takeBound bound (nodes.filter (fun node => node.isHub || !node.symbols.isEmpty))

/-- The layer under which a file is drawn. -/
def layerOf (node : Node) : Layer :=
  node.layer.getD .other

/-- The occurring layers in order of first appearance, each with its files. -/
def groups (nodes : List Node) : List (Layer × List Node) :=
  (OrderedMap.collect layerOf [] (fun members node => members ++ [node]) nodes).entries

/-- Whether two edges are drawn as one. -/
def sameArrow (first second : Edge) : Bool :=
  first.source = second.source && first.target = second.target &&
    first.relation = second.relation

/-- The edges to draw between the given paths: no loops, and of equal arrows only the first. -/
def drawnEdges (paths : List String) (edges : List Edge) : List Edge :=
  let between := edges.filter (fun edge =>
    edge.source ≠ edge.target && paths.contains edge.source && paths.contains edge.target)
  (between.foldl (fun done edge => if done.any (sameArrow edge) then done else edge :: done)
    []).reverse

/-- Whether an edge carries two names and is labelled with its relation. -/
def isLabelled (edge : Edge) : Bool :=
  edge.sourceSymbol.any (· ≠ "") && edge.targetSymbol.any (· ≠ "")

/-- The line of an edge. -/
def edgeLine (edge : Edge) : String :=
  let middle :=
    if isLabelled edge then arrow edge.relation ++ "|" ++ edge.relation.word ++ "|"
    else arrow edge.relation
  "    " ++ identifier edge.source ++ " " ++ middle ++ " " ++ identifier edge.target

/-- The lines of a group of files. -/
def groupLines (group : Layer × List Node) : List String :=
  ("    subgraph " ++ group.1.word) ::
    group.2.map (fun node => "        " ++ declaration node) ++ ["    end"]

/-- The lines that declare files. -/
def declarationLines (grouped : Bool) (nodes : List Node) : List String :=
  if grouped then (groups nodes).flatMap groupLines
  else nodes.map (fun node => "    " ++ declaration node)

/-- The flowchart of an architecture graph. -/
def render (graph : Graph) (bound : Int) (grouped : Bool) : String :=
  let nodes := significant bound graph.nodes
  let edges := drawnEdges (nodes.map Node.path) graph.edges
  String.intercalate "\n"
    ("flowchart TB" :: declarationLines grouped nodes ++ edges.map edgeLine)

/-- How many files are drawn unless another bound is asked for. -/
def defaultBound : Int := 30

end RepoAtlas.Diagram
