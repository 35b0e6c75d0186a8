/-
Module: RepoAtlas.Architecture.SymbolTable
Purpose: Where each exported name is defined.
  Files are visited in discovery order, classes before functions, and the last exported definition
  of a name wins; the name keeps the position of its first one.
Main exports: SymbolEntry, exportedEntries, symbolTable
-/
import RepoAtlas.Outline

namespace RepoAtlas.Architecture

/-- The definition that an exported name stands for. -/
structure SymbolEntry where
  name : String
  file : String
  kind : SymbolKind
  exported : Bool := true
deriving DecidableEq, Repr, Inhabited

/-- The exported definitions of a file, classes first. -/
def exportedEntries (path : String) (outline : Option Outline) : List SymbolEntry :=
  match outline with
  | none => []
  | some outline =>
    (outline.classesFirst.filter Symbol.exported).map
      (fun symbol => { name := symbol.name, file := path, kind := symbol.kind })

/-- The exported definitions of all files in the order in which they are visited. -/
def allExported (files : FileMap) : List SymbolEntry :=
  files.entries.flatMap (fun (path, outline) => exportedEntries path outline)

/-- The table of exported names. -/
def symbolTable (files : FileMap) : OrderedMap String SymbolEntry :=
  OrderedMap.ofList ((allExported files).map (fun entry => (entry.name, entry)))

end RepoAtlas.Architecture
