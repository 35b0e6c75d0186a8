/-
Module: RepoAtlas.Path
Purpose: Slash-separated paths as texts.
  A path is what a repository lists: it may hold empty segments, dots and leading slashes, and each
  function says what it makes of them.
Main exports: fileName, directory, extension, join, normalize
-/
import RepoAtlas.Text.Characters
import RepoAtlas.Text.Search

namespace RepoAtlas.Path

open Text

/-- The characters after the last slash. -/
def fileNameChars (path : List Char) : List Char :=
  (path.reverse.takeWhile (· ≠ '/')).reverse

/-- The characters up to and including the last slash. -/
def directoryPart (path : List Char) : List Char :=
  (path.reverse.dropWhile (· ≠ '/')).reverse

/-- What stands before the last slash, without trailing slashes unless nothing else is there. -/
def directoryChars (path : List Char) : List Char :=
  let head := directoryPart path
  if head.all (· == '/') then head else dropEndWhile (· == '/') head

/-- The last dot of a file name and what follows it.  Leading dots begin no extension. -/
def extensionChars (path : List Char) : List Char :=
  let name := fileNameChars path
  let stem := ((name.reverse.dropWhile (· ≠ '.')).drop 1).reverse
  if stem.any (· ≠ '.') then name.drop stem.length else []

/-- A relative path placed under a directory. -/
def joinChars (directory relative : List Char) : List Char :=
  match directory.getLast? with
  | none => relative
  | some '/' => directory ++ relative
  | some _ => directory ++ '/' :: relative

/-- How many slashes a normal path begins with: none, one, or exactly two. -/
def leadingSlashes (path : List Char) : Nat :=
  match (path.takeWhile (· == '/')).length with
  | 0 => 0
  | 2 => 2
  | _ => 1

/-- Takes one segment while normalising.  `done` holds the segments kept so far, latest first;
an ascent cancels a kept segment, and is kept itself only where nothing precedes it. -/
def normalStep (rooted : Bool) (done : List (List Char)) (segment : List Char) :
    List (List Char) :=
  if segment = [] ∨ segment = ['.'] then done
  else if segment = ['.', '.'] then
    match done with
    | [] => if rooted then [] else [segment]
    | last :: kept => if last = ['.', '.'] then segment :: done else kept
  else segment :: done

/-- The path without empty segments, dots, and ascents that cancel; `.` when nothing is left. -/
def normalizeChars (path : List Char) : List Char :=
  let slashes := leadingSlashes path
  let kept := ((split '/' path).foldl (normalStep (slashes != 0)) []).reverse
  let whole := List.replicate slashes '/' ++ List.intercalate ['/'] kept
  if whole.isEmpty then ['.'] else whole

/-- The last segment of a path. -/
def fileName (path : String) : String :=
  String.ofList (fileNameChars path.toList)

/-- The directory of a path; empty for a path without slash. -/
def directory (path : String) : String :=
  String.ofList (directoryChars path.toList)

/-- The extension of a path with its dot; empty when there is none. -/
def extension (path : String) : String :=
  String.ofList (extensionChars path.toList)

/-- A relative path placed under a directory. -/
def join (directory relative : String) : String :=
  String.ofList (joinChars directory.toList relative.toList)

/-- The normal form of a path. -/
def normalize (path : String) : String :=
  String.ofList (normalizeChars path.toList)

end RepoAtlas.Path
