/-
Module: RepoAtlas.Source.Tree
Purpose: The syntax tree of a Python source file as far as an analysis looks at it.
  Definitions, imports and the blocks that contain them are kept with the text their author wrote;
  every other statement is only known to be there.  How the tree is read off a source is left to a
  grammar, which an analysis is given.
Main exports: Name, Base, Origin, ImportName, Imported, Statement, Grammar
-/

namespace RepoAtlas.Source

/-- The name of a definition and the line it stands on, counted from one. -/
structure Name where
  text : String
  line : Nat
deriving DecidableEq, Repr, Inhabited

/-- A node among the arguments of a class header. -/
inductive Base where
  /-- A plain name. -/
  | identifier (text : String)
  /-- An expression that ends in a dot and a name, with its whole text. -/
  | attribute (text : String)
  /-- An expression followed by a subscript. -/
  | subscript (value : Base)
  /-- Anything else: calls, operators, literals, starred and keyword arguments. -/
  | other
deriving DecidableEq, Repr, Inhabited

/-- Where the names of a `from` import come from, with the text of the module. -/
inductive Origin where
  | absolute (text : String)
  /-- The text begins with a dot. -/
  | relative (text : String)
  /-- No module is written, in a source that is not well formed. -/
  | missing
deriving DecidableEq, Repr, Inhabited

/-- A node among the names of an import. -/
inductive ImportName where
  /-- A name with the dots in it. -/
  | plain (text : String)
  /-- A name that is renamed: the whole text, and the text of the name in it, if there is one. -/
  | aliased (text : String) (name : Option String)
deriving DecidableEq, Repr, Inhabited

/-- What a `from` import brings in. -/
inductive Imported where
  | wildcard
  | names (names : List ImportName)
deriving DecidableEq, Repr, Inhabited

/-- A statement. -/
inductive Statement where
  | functionDef (name : Name) (isAsync : Bool) (body : List Statement)
  /-- The arguments of the header are there if it has brackets. -/
  | classDef (name : Name) (superclasses : Option (List Base)) (body : List Statement)
  /-- A definition below one or more decorators. -/
  | decorated (definition : Statement)
  | importModules (modules : List ImportName)
  | importFrom (origin : Origin) (imported : Imported)
  /-- A statement with a block that is neither a function nor a class. -/
  | compound (body : List Statement)
  /-- A statement that contains no other. -/
  | simple
deriving Inhabited

/-- How sources are read: a grammar gives the outermost statements of each. -/
abbrev Grammar := List Char → List Statement

end RepoAtlas.Source
