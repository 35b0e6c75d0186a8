/-
Module: RepoAtlas.Outline
Purpose: What one source file contributes to an analysis: its definitions, imports and exports.
Main exports: SymbolKind, Symbol, Outline, FileMap, exportCount, symbolCount
-/
import RepoAtlas.OrderedMap

namespace RepoAtlas

/-- The kind of a definition. -/
inductive SymbolKind where
  | function
  | classType
  | method
  | struct
  | enum
  | trait
  | interface
deriving DecidableEq, Repr, Inhabited

/-- The word for a kind of definition. -/
def SymbolKind.word : SymbolKind → String
  | .function => "function"
  | .classType => "class"
  | .method => "method"
  | .struct => "struct"
  | .enum => "enum"
  | .trait => "trait"
  | .interface => "interface"

/-- A function or class-like definition. -/
structure Symbol where
  name : String
  kind : SymbolKind
  /-- The line of the name, counted from one. -/
  line : Int
  exported : Bool := false
  /-- The first base of a class. -/
  extends? : Option String := none
  /-- The further bases of a class. -/
  implements : List String := []
  isAsync : Bool := false
deriving DecidableEq, Repr, Inhabited

/-- The definitions, imports and exports of one file.  Imports are specifiers in source order; a
wildcard re-export is the export statement `* from` followed by its specifier. -/
structure Outline where
  language : String
  functions : List Symbol := []
  classes : List Symbol := []
  imports : List String := []
  exports : List String := []
  hasTests : Bool := false
deriving DecidableEq, Repr, Inhabited

/-- The discovered files in discovery order.  A file without an outline could not be parsed. -/
abbrev FileMap := OrderedMap String (Option Outline)

namespace Outline

/-- The classes followed by the functions. -/
def classesFirst (outline : Outline) : List Symbol :=
  outline.classes ++ outline.functions

/-- The names of the exported definitions, classes first. -/
def exportedNames (outline : Outline) : List String :=
  (outline.classesFirst.filter Symbol.exported).map Symbol.name

/-- The number of exported definitions and export statements. -/
def exportCount (outline : Outline) : Nat :=
  outline.functions.countP Symbol.exported + outline.classes.countP Symbol.exported +
    outline.exports.length

/-- The number of definitions. -/
def symbolCount (outline : Outline) : Nat :=
  outline.functions.length + outline.classes.length

end Outline

end RepoAtlas
