/-
Module: RepoAtlas.Architecture.Graph
Purpose: The import graph enriched with inheritance and re-exports.
  A class is linked to the file that its base resolves to in the symbol table, and a wildcard
  re-export to the file its specifier means.  Import edges come first, then the others file by file.
Main exports: Relation, Edge, Node, Graph, build
-/
import RepoAtlas.Architecture.Layer
import RepoAtlas.Architecture.SymbolTable
import RepoAtlas.Imports.Graph
import RepoAtlas.Source.Specifier

namespace RepoAtlas.Architecture

open Text

/-- The kind of relation that an edge carries. -/
inductive Relation where
  | imports
  | extends
  | implements
  | exports
  | reexports
deriving DecidableEq, Repr, Inhabited

/-- The word for a relation. -/
def Relation.word : Relation → String
  | .imports => "imports"
  | .extends => "extends"
  | .implements => "implements"
  | .exports => "exports"
  | .reexports => "re-exports"

/-- A relation between two files, with the names involved for inheritance. -/
structure Edge where
  source : String
  target : String
  relation : Relation
  sourceSymbol : Option String := none
  targetSymbol : Option String := none
deriving DecidableEq, Repr, Inhabited

/-- A file with its exported names. -/
structure Node where
  path : String
  symbols : List String := []
  isHub : Bool := false
  layer : Option Layer := none
deriving DecidableEq, Repr, Inhabited

/-- The files, their relations and the table of exported names. -/
structure Graph where
  nodes : List Node
  edges : List Edge
  table : OrderedMap String SymbolEntry := {}
deriving Inhabited

/-- How many hubs, most imported first, are marked. -/
def markedHubs : Nat := 20

/-- The edge from a class to the file that exports one of its bases. -/
def baseEdge? (table : OrderedMap String SymbolEntry) (path child : String) (relation : Relation)
    (base : String) : Option Edge :=
  (table.get? base).map (fun entry => ⟨path, entry.file, relation, some child, some base⟩)

/-- The inheritance edges of a class: its first base, then the others. -/
def classEdges (table : OrderedMap String SymbolEntry) (path : String) (symbol : Symbol) :
    List Edge :=
  ((symbol.extends?.toList.filter (· ≠ "")).filterMap
      (baseEdge? table path symbol.name .extends)) ++
    symbol.implements.filterMap (baseEdge? table path symbol.name .implements)

/-- The specifier of a wildcard re-export. -/
def reexportSpecifier? (statement : String) : Option String :=
  if startsWith statement Source.reexportLead then
    some (stripText (String.ofList (statement.toList.drop Source.reexportLead.length)))
  else none

/-- The re-export edges of a file. -/
def reexportEdges (known : List String) (path : String) (exports : List String) : List Edge :=
  (exports.filterMap reexportSpecifier?).filterMap (fun specifier =>
    (Imports.resolve specifier path known).map (fun target => ⟨path, target, .reexports, none, none⟩))

/-- The inheritance and re-export edges of a file. -/
def fileEdges (table : OrderedMap String SymbolEntry) (known : List String) (path : String)
    (outline : Option Outline) : List Edge :=
  match outline with
  | none => []
  | some outline =>
    outline.classes.flatMap (classEdges table path) ++ reexportEdges known path outline.exports

/-- An import edge of the import graph as a relation. -/
def importEdge (edge : Imports.Edge) : Edge :=
  ⟨edge.source, edge.target, .imports, none, none⟩

/-- The architecture of the discovered files on top of their import graph. -/
def build (files : FileMap) (graph : Imports.Graph) : Graph :=
  let table := symbolTable files
  let known := files.keys
  let hubPaths := (graph.hubs.take markedHubs).map Imports.Node.path
  { nodes := files.entries.map (fun (path, outline) =>
      { path := path
        symbols := (outline.map Outline.exportedNames).getD []
        isHub := hubPaths.contains path
        layer := Layer.ofPath path })
    edges := graph.edges.map importEdge ++
      files.entries.flatMap (fun (path, outline) => fileEdges table known path outline)
    table := table }

end RepoAtlas.Architecture
