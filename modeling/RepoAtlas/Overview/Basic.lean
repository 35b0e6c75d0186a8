/-
Module: RepoAtlas.Overview.Basic
Purpose: The overview of a repository: entry points, core modules, hubs, layers, inheritance,
  directories and where to find things.
Main exports: EntryPoint, CoreModule, Hub, Report, report
-/
import RepoAtlas.Diagram.Chains
import RepoAtlas.Diagram.Flowchart
import RepoAtlas.Overview.DirectoryTree
import RepoAtlas.Overview.EntryPoint
import RepoAtlas.Overview.FindingTable

namespace RepoAtlas.Overview

open Architecture Diagram

/-- A file through which the program is entered. -/
structure EntryPoint where
  path : String
  kind : EntryKind
  exports : List String
deriving DecidableEq, Repr, Inhabited

/-- A file that exports several definitions. -/
structure CoreModule where
  path : String
  purpose : String
  exports : List String
deriving DecidableEq, Repr, Inhabited

/-- A file that many others import. -/
structure Hub where
  path : String
  importerCount : Nat
  exports : List String
deriving DecidableEq, Repr, Inhabited

/-- The overview of a repository. -/
structure Report where
  entryPoints : List EntryPoint
  coreModules : List CoreModule
  hubs : List Hub
  layers : List LayerGroup
  inheritance : List Inheritance
  directoryTree : DirectoryNode
  findingTable : List Finding
deriving Inhabited

/-- A file with at least this many exported names is a core module. -/
def coreModuleSymbols : Nat := 3

/-- What a file is about: its first class, its first function, or else its name. -/
def purpose (path : String) (outline : Option Outline) : String :=
  let stem := sourceStem (Path.fileName path)
  match outline with
  | none => stem
  | some outline =>
    match outline.classes, outline.functions with
    | symbol :: _, _ => symbol.name ++ " and related"
    | [], symbol :: _ => symbol.name ++ " utilities"
    | [], [] => stem

/-- The exported names of the last node at a path. -/
def symbolsAt (nodes : List Node) (path : String) : List String :=
  ((nodes.reverse.find? (fun node => node.path = path)).map Node.symbols).getD []

/-- What an entry point exports: its export statements apart from wildcard re-exports, or else its
exported names. -/
def entryExports (nodes : List Node) (path : String) (outline : Option Outline) : List String :=
  let statements := ((outline.map Outline.exports).getD []).filter
    (fun statement => !Text.startsWith statement Source.reexportLead)
  if statements.isEmpty then symbolsAt nodes path else statements

/-- The entry points in discovery order. -/
def entryPoints (files : FileMap) (nodes : List Node) : List EntryPoint :=
  files.entries.filterMap (fun (path, outline) =>
    (EntryKind.ofPath path).map (fun kind => ⟨path, kind, entryExports nodes path outline⟩))

/-- The core modules in discovery order. -/
def coreModules (files : FileMap) (nodes : List Node) : List CoreModule :=
  (nodes.filter (fun node => coreModuleSymbols ≤ node.symbols.length)).map
    (fun node => ⟨node.path, purpose node.path (files.get? node.path).join, node.symbols⟩)

/-- The hubs of the import graph with their exported names. -/
def hubs (graph : Imports.Graph) (nodes : List Node) : List Hub :=
  graph.hubs.map (fun hub => ⟨hub.path, hub.inDegree, symbolsAt nodes hub.path⟩)

/-- The occurring layers in order of first appearance, each with its files. -/
def layerGroups (nodes : List Node) : List LayerGroup :=
  (OrderedMap.collect layerOf [] (fun files node => files ++ [node.path]) nodes).entries.map
    (fun (layer, files) => ⟨layer, files⟩)

/-- Whether a relation is inheritance. -/
def isInheritance (relation : Relation) : Bool :=
  relation = .extends || relation = .implements

/-- The inheritance relations of an architecture graph. -/
def inheritance (edges : List Edge) : List Inheritance :=
  (edges.filter (fun edge => isInheritance edge.relation)).map (fun edge =>
    { child := edge.sourceSymbol.getD ""
      childFile := edge.source
      parent := edge.targetSymbol.getD ""
      parentFile := edge.target
      relation := edge.relation })

/-- The number of importers of a file that has any. -/
def importerCount? (graph : Imports.Graph) (path : String) : Option Int :=
  match graph.nodes.get? path with
  | some node => if 0 < node.inDegree then some node.inDegree else none
  | none => none

/-- The overview of the discovered files. -/
def report (files : FileMap) (graph : Imports.Graph) (architecture : Graph) : Report where
  entryPoints := entryPoints files architecture.nodes
  coreModules := coreModules files architecture.nodes
  hubs := hubs graph architecture.nodes
  layers := layerGroups architecture.nodes
  inheritance := inheritance architecture.edges
  directoryTree := treeOf files.keys (importerCount? graph)
  findingTable := Overview.findingTable files

end RepoAtlas.Overview
