/-
Module: RepoAtlas.Imports.Graph
Purpose: The file-to-file import graph and its hubs.
  Every discovered file is a node, parsed or not.  An edge goes from a parsed file to each other file
  that one of its specifiers means, once however often it is imported.  The specifiers are read file
  by file into a directed graph that remembers the order in which its edges came.
Main exports: Edge, Node, Graph, Digraph, Digraph.addEdge, Links, Links.addSpecifier, links, build,
  hubThreshold, maxInDegree
-/
import RepoAtlas.Imports.Resolve
import RepoAtlas.Outline

namespace RepoAtlas.Imports

/-- A resolved import: `source` imports `target`. -/
structure Edge where
  source : String
  target : String
deriving DecidableEq, Repr, Inhabited

/-- A file as the import graph sees it. -/
structure Node where
  path : String
  imports : List String := []
  /-- The relative specifiers that mean no discovered file. -/
  unresolved : List String := []
  /-- The files that import this one, in discovery order. -/
  importedBy : List String := []
deriving DecidableEq, Repr, Inhabited

/-- The number of files that import a file. -/
def Node.inDegree (node : Node) : Nat :=
  node.importedBy.length

/-- The import graph.  Hubs are listed most imported first, equals in discovery order. -/
structure Graph where
  nodes : OrderedMap String Node
  edges : List Edge
  hubs : List Node
deriving Inhabited

/-- A file with at least this many importers is a hub. -/
def hubThreshold : Nat := 3

/-- The specifiers of a file, none if it could not be parsed. -/
def specifiers (outline : Option Outline) : List String :=
  (outline.map Outline.imports).getD []

/-- A directed graph that remembers the order in which its nodes and edges came: under each node
stand the targets of the edges out of it, and the sources of those into it. -/
structure Digraph where
  successors : OrderedMap String (List String) := {}
  predecessors : OrderedMap String (List String) := {}
deriving Inhabited

namespace Digraph

/-- Adds a node, if it is not there. -/
def addNode (graph : Digraph) (path : String) : Digraph :=
  if graph.successors.contains path then graph
  else
    { successors := graph.successors.insert path []
      predecessors := graph.predecessors.insert path [] }

/-- Adds an edge with its ends, as far as they are not there. -/
def addEdge (graph : Digraph) (edge : Edge) : Digraph :=
  let ends := (graph.addNode edge.source).addNode edge.target
  { successors := ends.successors.alter edge.source [] (addOnce · edge.target)
    predecessors := ends.predecessors.alter edge.target [] (addOnce · edge.source) }

/-- The edges, node by node. -/
def edges (graph : Digraph) : List Edge :=
  graph.successors.entries.flatMap (fun (source, targets) => targets.map (Edge.mk source))

end Digraph

/-- What has been read of the specifiers: the edges between files, and under each file its relative
specifiers that mean no discovered file. -/
structure Links where
  digraph : Digraph := {}
  unresolved : OrderedMap String (List String) := {}
deriving Inhabited

namespace Links

/-- Reads a specifier of a file.  One that means the file itself is passed over. -/
def addSpecifier (known : List String) (source : String) (links : Links) (specifier : String) :
    Links :=
  if isRelative specifier then
    match resolve specifier source known with
    | none =>
      { links with unresolved := links.unresolved.alter source [] (· ++ [specifier]) }
    | some target =>
      if target = source then links
      else { links with digraph := links.digraph.addEdge ⟨source, target⟩ }
  else links

/-- Reads the specifiers of a file. -/
def addFile (known : List String) (links : Links) (file : String × Option Outline) : Links :=
  (specifiers file.2).foldl (addSpecifier known file.1) links

end Links

/-- What the specifiers of all files say. -/
def links (files : FileMap) : Links :=
  files.entries.foldl (Links.addFile files.keys)
    { digraph := files.keys.foldl Digraph.addNode ({} : Digraph) }

/-- The edges of the import graph. -/
def edges (files : FileMap) : List Edge :=
  (links files).digraph.edges

/-- The nodes of the import graph. -/
def nodes (files : FileMap) : OrderedMap String Node :=
  let links := links files
  files.mapWithKey (fun path outline =>
    { path := path
      imports := specifiers outline
      unresolved := (links.unresolved.get? path).getD []
      importedBy := (links.digraph.predecessors.get? path).getD [] })

/-- Nodes with the most imported first; equals keep their order. -/
def byInDegree (nodes : List Node) : List Node :=
  nodes.mergeSort (fun first second => second.inDegree ≤ first.inDegree)

/-- The nodes with enough importers, most imported first. -/
def hubs (nodes : List Node) : List Node :=
  (byInDegree nodes).filter (fun node => hubThreshold ≤ node.inDegree)

/-- The import graph of the discovered files. -/
def build (files : FileMap) : Graph where
  nodes := nodes files
  edges := edges files
  hubs := hubs (nodes files).values

/-- The largest number of importers of a file. -/
def Graph.maxInDegree (graph : Graph) : Nat :=
  (graph.nodes.values.map Node.inDegree).foldl max 0

end RepoAtlas.Imports
