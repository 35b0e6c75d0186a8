/-
Module: RepoAtlas.Source.Summary
Purpose: The outline of a source file, read off its syntax tree.
  Definitions are found at every depth.  One is exported when it stands directly in the module,
  decorators aside, under a name without leading underscore; a function directly in the body of a
  class is a method and is not exported.
Main exports: Place, baseNames, functionsOf, classesOf, importsOf, exportsOf, languageOf, outlineOf,
  syntaxTree, parse
-/
import RepoAtlas.Content
import RepoAtlas.Outline
import RepoAtlas.Path
import RepoAtlas.Source.Specifier

namespace RepoAtlas.Source

open Text

/-- Where a statement stands. -/
inductive Place where
  | module
  | classBody
  | nested
deriving DecidableEq, Repr, Inhabited

/-- Whether a definition at a place is visible to other modules. -/
def isExported (place : Place) (name : String) : Bool :=
  place = .module && !startsWith name "_"

/-- The characters after the last dot. -/
def afterLastDot (text : String) : String :=
  String.ofList (text.toList.reverse.takeWhile (· ≠ '.')).reverse

/-- What a base is without a subscript that it carries. -/
def Base.unsubscripted : Base → Base
  | .subscript value => value
  | base => base

/-- The text of a base that is a plain or dotted name. -/
def Base.nameText? : Base → Option String
  | .identifier text => some text
  | .attribute text => some text
  | .subscript _ | .other => none

/-- The simple name of a base, unless it is none or the base that every class has. -/
def Base.name? (base : Base) : Option String :=
  (base.unsubscripted.nameText?.map afterLastDot).filter (· ≠ "object")

/-- The simple names of a class's bases. -/
def baseNames : Option (List Base) → List String
  | none => []
  | some bases => bases.filterMap Base.name?

/-- The symbol of a function definition. -/
def functionSymbol (place : Place) (name : Name) (isAsync : Bool) : Symbol where
  name := name.text
  kind := if place = .classBody then .method else .function
  line := name.line
  exported := isExported place name.text
  isAsync := isAsync

/-- The symbol of a class definition. -/
def classSymbol (place : Place) (name : Name) (superclasses : Option (List Base)) : Symbol where
  name := name.text
  kind := .classType
  line := name.line
  exported := isExported place name.text
  extends? := (baseNames superclasses).head?
  implements := (baseNames superclasses).drop 1

mutual

/-- The functions a statement defines, itself first. -/
def functionsOf (place : Place) : Statement → List Symbol
  | .functionDef name isAsync body =>
    functionSymbol place name isAsync :: functionsOfAll .nested body
  | .classDef _ _ body => functionsOfAll .classBody body
  | .decorated definition => functionsOf place definition
  | .compound body => functionsOfAll .nested body
  | _ => []

/-- The functions that statements define, in source order. -/
def functionsOfAll (place : Place) : List Statement → List Symbol
  | [] => []
  | statement :: rest => functionsOf place statement ++ functionsOfAll place rest

end

mutual

/-- The classes a statement defines, itself first. -/
def classesOf (place : Place) : Statement → List Symbol
  | .functionDef _ _ body => classesOfAll .nested body
  | .classDef name superclasses body =>
    classSymbol place name superclasses :: classesOfAll .classBody body
  | .decorated definition => classesOf place definition
  | .compound body => classesOfAll .nested body
  | _ => []

/-- The classes that statements define, in source order. -/
def classesOfAll (place : Place) : List Statement → List Symbol
  | [] => []
  | statement :: rest => classesOf place statement ++ classesOfAll place rest

end

mutual

/-- The specifiers a statement imports. -/
def importsOf : Statement → List String
  | .importModules modules => modules.map ImportName.unaliased
  | .importFrom origin imported => importedSpecifiers origin imported
  | .functionDef _ _ body => importsOfAll body
  | .classDef _ _ body => importsOfAll body
  | .decorated definition => importsOf definition
  | .compound body => importsOfAll body
  | .simple => []

/-- The specifiers that statements import, in source order. -/
def importsOfAll : List Statement → List String
  | [] => []
  | statement :: rest => importsOf statement ++ importsOfAll rest

end

mutual

/-- The export statements a statement makes. -/
def exportsOf : Statement → List String
  | .importFrom origin imported => reexports origin imported
  | .functionDef _ _ body => exportsOfAll body
  | .classDef _ _ body => exportsOfAll body
  | .decorated definition => exportsOf definition
  | .compound body => exportsOfAll body
  | _ => []

/-- The export statements that statements make, in source order. -/
def exportsOfAll : List Statement → List String
  | [] => []
  | statement :: rest => exportsOf statement ++ exportsOfAll rest

end

/-- Symbols in order of their lines; those of one line keep their order. -/
def byLine (symbols : List Symbol) : List Symbol :=
  symbols.mergeSort (fun first second => first.line ≤ second.line)

/-- Whether a file looks like tests, by its name or by the names it defines. -/
def looksLikeTests (path : String) (functions classes : List Symbol) : Bool :=
  let name := Path.fileName path
  startsWith name "test_" || endsWith name "_test.py" ||
    functions.any (fun symbol => startsWith symbol.name "test_") ||
    classes.any (fun symbol => startsWith symbol.name "Test")

/-- The languages that can be parsed, by file extension. -/
def languages : List (String × String) := [(".py", "python")]

/-- The language of a path, if files of it can be parsed. -/
def languageOf (path : String) : Option String :=
  (languages.find? (fun language => language.1 = Path.extension path)).map Prod.snd

/-- The outline of a file with the given statements. -/
def outlineOf (path language : String) (statements : List Statement) : Outline where
  language := language
  functions := byLine (functionsOfAll .module statements)
  classes := byLine (classesOfAll .module statements)
  imports := importsOfAll statements
  exports := exportsOfAll statements
  hasTests :=
    looksLikeTests path (functionsOfAll .module statements) (classesOfAll .module statements)

/-- Whether a character is white space in ASCII. -/
def isPlainBlank (char : Char) : Bool :=
  char = ' ' || (0x9 ≤ char.toNat && char.toNat ≤ 0xD)

/-- The syntax tree of a source.  One of white space alone is not given to the grammar. -/
def syntaxTree (grammar : Grammar) (source : List Char) : List Statement :=
  if source.all isPlainBlank then [] else grammar source

/-- The outline of a file.  Files in other languages and files that are not text have none. -/
def parse (grammar : Grammar) (path : String) (content : Content) : Option Outline := do
  let language ← languageOf path
  let source ← content.source?
  some (outlineOf path language (syntaxTree grammar source))

end RepoAtlas.Source
