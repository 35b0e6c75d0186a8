/-
Module: RepoAtlas.Skeleton.SearchPatterns
Purpose: The most frequent names worth searching for.
  Names are counted over all functions and classes.  A name that one file alone defines is to be
  searched in that file's directory, any other name everywhere.
Main exports: SearchPattern, isSearchWorthy, countOccurrences, mostFrequent, NameTally, tallyOf,
  searchPatternsOf
-/
import RepoAtlas.Outline
import RepoAtlas.Path

namespace RepoAtlas.Skeleton

/-- A name to search for, and where if that is known. -/
structure SearchPattern where
  pattern : String
  scope : Option String := none
deriving DecidableEq, Repr, Inhabited

/-- How many patterns are listed. -/
def searchPatternLimit : Nat := 10

/-- Names that say nothing about a repository. -/
def genericNames : List String :=
  ["default", "index", "main", "init", "setup", "config", "utils", "helpers", "types", "constants",
    "get", "set", "run", "start", "stop", "create", "update", "delete", "handle", "process",
    "render", "App", "Component", "Provider", "Context", "__init__", "__call__", "__repr__"]

/-- Whether a name, apart from a final line break, consists of small ASCII letters only. -/
def isSmallWord (name : String) : Bool :=
  let letters :=
    match name.toList.reverse with
    | '\n' :: rest => rest
    | all => all
  !letters.isEmpty && letters.all Char.isLower

/-- Whether a name is worth searching for: not short, not generic, and not a short word in small
letters. -/
def isSearchWorthy (name : String) : Bool :=
  4 ≤ name.length && !genericNames.contains name && !(isSmallWord name && name.length < 6)

/-- The items with the number of their occurrences. -/
def countOccurrences (items : List String) : OrderedMap String Nat :=
  OrderedMap.collect id 0 (fun count _ => count + 1) items

/-- The counted items by falling number; equals in their order. -/
def mostFrequent (counts : OrderedMap String Nat) : List String :=
  (counts.entries.mergeSort (fun first second => second.2 ≤ first.2)).map Prod.fst

/-- What has been counted: how often each name is defined, and in which files. -/
structure NameTally where
  counts : OrderedMap String Nat := {}
  paths : OrderedMap String (List String) := {}
deriving Inhabited

namespace NameTally

/-- Counts a definition in a file, if its name is worth searching for. -/
def add (path : String) (tally : NameTally) (symbol : Symbol) : NameTally :=
  if isSearchWorthy symbol.name then
    { counts := tally.counts.alter symbol.name 0 (· + 1)
      paths := tally.paths.alter symbol.name [] (addOnce · path) }
  else tally

/-- Counts the functions and then the classes of a file. -/
def addFile (tally : NameTally) (file : String × Option Outline) : NameTally :=
  match file.2 with
  | none => tally
  | some outline => (outline.functions ++ outline.classes).foldl (add file.1) tally

end NameTally

/-- What all files define. -/
def tallyOf (files : FileMap) : NameTally :=
  files.entries.foldl NameTally.addFile default

/-- Where a name is to be searched: in the directory of the only file that defines it. -/
def scopeOf (paths : List String) : Option String :=
  match paths with
  | [path] =>
    let directory := Path.directory path
    some (if directory = "" then "." else directory)
  | _ => none

/-- The patterns of the discovered files. -/
def searchPatternsOf (files : FileMap) : List SearchPattern :=
  let tally := tallyOf files
  ((mostFrequent tally.counts).take searchPatternLimit).map
    (fun name => ⟨name, scopeOf ((tally.paths.get? name).getD [])⟩)

end RepoAtlas.Skeleton
