/-
Module: RepoAtlas.Skeleton.Patterns
Purpose: The language, framework, tests and documentation of a repository.
  Imports and file names score points for frameworks, and the one with the most points wins; ties go
  to the one that scored first.
Main exports: DetectedPatterns, primaryLanguage, framework, detectPatterns
-/
import RepoAtlas.Ranking.Rank
import RepoAtlas.Skeleton.SearchPatterns
import RepoAtlas.Text.Lowercase

namespace RepoAtlas.Skeleton

open Ranking Text

/-- What is known about a repository as a whole. -/
structure DetectedPatterns where
  language : String
  hasTests : Bool
  hasDocs : Bool
  framework : Option String := none
deriving DecidableEq, Repr, Inhabited

/-- The proper names of languages. -/
def languageNames : List (String × String) := [
  ("typescript", "TypeScript"), ("tsx", "TypeScript"), ("javascript", "JavaScript"),
  ("python", "Python"), ("rust", "Rust"), ("go", "Go"), ("java", "Java")]

/-- The proper names of frameworks. -/
def frameworkNames : List (String × String) := [
  ("react", "React"), ("nextjs", "Next.js"), ("vue", "Vue"), ("angular", "Angular"),
  ("express", "Express"), ("fastapi", "FastAPI"), ("django", "Django"), ("flask", "Flask"),
  ("nestjs", "NestJS"), ("svelte", "Svelte"), ("typer", "Typer")]

/-- The outlines of the parsed files. -/
def outlines (files : FileMap) : List Outline :=
  files.values.filterMap id

/-- The language of most parsed files, by its proper name if it has one. -/
def primaryLanguage (files : FileMap) : String :=
  let languages := (outlines files).map (fun outline => lowerText outline.language)
  match mostFrequent (countOccurrences languages) with
  | [] => "unknown"
  | top :: _ => (languageNames.lookup top).getD top

/-- Points for a framework. -/
abbrev Points := String × Nat

/-- The points that a file's name scores. -/
def namePoints (path : String) : List Points :=
  let name := lowerText (Path.fileName path)
  (if ["next.config.js", "next.config.ts", "next.config.mjs"].contains name then [("nextjs", 5)]
    else []) ++
  (if name = "manage.py" then [("django", 3)] else []) ++
  (if name = "angular.json" then [("angular", 3)] else []) ++
  (if endsWith name ".vue" then [("vue", 2)] else []) ++
  (if endsWith name ".svelte" then [("svelte", 2)] else [])

/-- The points that an import scores. -/
def importPoints (specifier : String) : List Points :=
  let root := lowerText (before '.' (before '/' specifier))
  if startsWith specifier "next/" then [("nextjs", 2)]
  else if ["react", "react-dom"].contains root then [("react", 1)]
  else if ["vue", "svelte", "express"].contains root then [(root, 2)]
  else if ["fastapi", "django", "flask", "typer"].contains root then [(root, 3)]
  else if startsWith specifier "@angular/" then [("angular", 3)]
  else if startsWith specifier "@nestjs/" then [("nestjs", 3)]
  else []

/-- The points that a file scores, in order. -/
def filePoints (path : String) (outline : Option Outline) : List Points :=
  namePoints path ++ ((outline.map Outline.imports).getD []).flatMap importPoints

/-- The total of each framework, in order of first points. -/
def totals (points : List Points) : List Points :=
  (OrderedMap.collect Prod.fst 0 (fun total point => total + point.2) points).entries

/-- The framework with the most points; a repository that scores for React and Next.js with React in
front is one of Next.js. -/
def framework (files : FileMap) : Option String :=
  let totals := totals (files.entries.flatMap (fun (path, outline) => filePoints path outline))
  match totals.mergeSort (fun first second => second.2 ≤ first.2) with
  | [] => none
  | (top, _) :: _ =>
    let top := if top = "react" && totals.any (fun total => total.1 = "nextjs") then "nextjs" else top
    frameworkNames.lookup top

/-- Whether a ranked file is documentation. -/
def isDocumentation (file : RankedFile) : Bool :=
  file.role = .doc || occursIn "readme" (lowerText (Path.fileName file.path))

/-- What is known about the discovered files as a whole. -/
def detectPatterns (files : FileMap) (ranked : List RankedFile) : DetectedPatterns where
  language := primaryLanguage files
  hasTests := ranked.any (fun file => file.role = .test) || (outlines files).any Outline.hasTests
  hasDocs := ranked.any isDocumentation
  framework := framework files

end RepoAtlas.Skeleton
