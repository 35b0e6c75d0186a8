/-
Module: RepoAtlas.Overview.EntryPoint
Purpose: Which files a program is entered through, judged by their paths.
  A path may end in one line break, which the rules overlook.
Main exports: EntryKind, EntryKind.word, EntryKind.ofPath, sourceStem
-/
import RepoAtlas.Path

namespace RepoAtlas.Overview

open Text

/-- How a program is entered through a file. -/
inductive EntryKind where
  | main
  | cli
  | server
  | worker
  | index
  | config
deriving DecidableEq, Repr, Inhabited

/-- The word for a kind of entry point. -/
def EntryKind.word : EntryKind → String
  | .main => "main"
  | .cli => "cli"
  | .server => "server"
  | .worker => "worker"
  | .index => "index"
  | .config => "config"

/-- A text without the line break it may end in. -/
def withoutFinalBreak (text : String) : String :=
  match text.toList.reverse with
  | '\n' :: rest => String.ofList rest.reverse
  | _ => text

/-- Whether the file name of a path is one of the stems, a dot and one of the extensions. -/
def isNamed (stems extensions : List String) (path : String) : Bool :=
  let name := Path.fileName (withoutFinalBreak path)
  stems.any (fun stem => extensions.any (fun extension => name = stem ++ "." ++ extension))

/-- Whether a directory on the path has one of the names. -/
def isUnder (names : List String) (path : String) : Bool :=
  (splitText '/' path).dropLast.any names.contains

/-- The rules in order; the first that applies decides. -/
def entryRules : List (EntryKind × (String → Bool)) := [
  (.main, isNamed ["main", "index", "app", "entry", "__main__"]
    ["ts", "js", "tsx", "jsx", "py", "rs", "go"]),
  (.cli, fun path =>
    isUnder ["cli", "bin", "cmd"] path || isNamed ["cli", "bin", "cmd"] ["py"] path),
  (.server, isNamed ["server", "api", "routes"] ["ts", "js", "py"]),
  (.worker, isNamed ["worker", "job", "queue"] ["ts", "js", "py"]),
  (.index, fun path =>
    isNamed ["index"] ["ts", "js", "tsx", "jsx"] path || isNamed ["__init__"] ["py"] path),
  (.config, isNamed ["config", "settings"] ["ts", "js", "json", "py"])]

/-- The kind of entry point that a file is, if any. -/
def EntryKind.ofPath (path : String) : Option EntryKind :=
  (entryRules.find? (fun rule => rule.2 path)).map Prod.fst

/-- The extensions of source files. -/
def sourceExtensions : List String :=
  ["ts", "js", "tsx", "jsx", "py", "rs", "go", "java", "rb", "php", "c", "cpp", "h", "hpp"]

/-- A file name without its extension, if that is one of a source file.  A final line break stays
where it is. -/
def sourceStem (name : String) : String :=
  let body := withoutFinalBreak name
  let reversed := body.toList.reverse
  let extension := String.ofList (reversed.takeWhile (· ≠ '.')).reverse
  match reversed.dropWhile (· ≠ '.') with
  | [] => name
  | _ :: stem =>
    if sourceExtensions.contains extension then
      String.ofList (stem.reverse ++ name.toList.drop body.length)
    else name

end RepoAtlas.Overview
