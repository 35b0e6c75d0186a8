/-
Module: RepoAtlas.Source.Specifier
Purpose: Relative imports of a source as path-like specifiers.
  One leading dot is the directory of the importing file and each further dot one directory up;
  dots inside the module become slashes.  White space that the author put into the module's text is
  kept.
Main exports: ImportName.unaliased, dotsToSlashes, relativeSpecifier, importedSpecifiers, reexports
-/
import RepoAtlas.Source.Tree
import RepoAtlas.Text.Characters

namespace RepoAtlas.Source

/-- The text of an imported name, without what it is renamed to. -/
def ImportName.unaliased : ImportName → String
  | .plain text => text
  | .aliased text name => name.getD text

/-- Every dot replaced by a slash. -/
def dotsToSlashes (chars : List Char) : List Char :=
  chars.map (fun char => if char = '.' then '/' else char)

/-- The steps up that a number of leading dots stands for. -/
def ascent (dots : Nat) : List Char :=
  if dots = 1 then ['.', '/'] else (List.replicate (dots - 1) ['.', '.', '/']).flatten

/-- The specifier of a relative module.  It ends in a slash when only dots are written. -/
def relativeSpecifier (module : List Char) : List Char :=
  let rest := module.dropWhile (· == '.')
  ascent (module.length - rest.length) ++ dotsToSlashes rest

/-- A specifier that names a directory itself, without trailing slashes. -/
def closedSpecifier (specifier : List Char) : List Char :=
  let trimmed := Text.dropEndWhile (· == '/') specifier
  if trimmed.isEmpty then ['.'] else trimmed

/-- The specifiers that a `from` import records.  When only dots are written, each imported name is
a module of its own. -/
def importedSpecifiers : Origin → Imported → List String
  | .missing, _ => []
  | .absolute text, _ => [text]
  | .relative text, imported =>
    let specifier := relativeSpecifier text.toList
    match imported with
    | .names (name :: others) =>
      if specifier.getLast? = some '/' then
        (name :: others).map (fun each =>
          String.ofList (specifier ++ dotsToSlashes each.unaliased.toList))
      else [String.ofList (closedSpecifier specifier)]
    | _ => [String.ofList (closedSpecifier specifier)]

/-- What an export statement of a wildcard re-export begins with. -/
def reexportLead : String := "* from "

/-- The export statements that a `from` import makes: a wildcard from a relative module exports all
of it again. -/
def reexports : Origin → Imported → List String
  | .relative text, .wildcard =>
    [reexportLead ++ String.ofList (closedSpecifier (relativeSpecifier text.toList))]
  | _, _ => []

end RepoAtlas.Source
