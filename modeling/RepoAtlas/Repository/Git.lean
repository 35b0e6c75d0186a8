/-
Module: RepoAtlas.Repository.Git
Purpose: A repository in its place, and what its version control answers.
  Version control is asked only where the repository has its directory, and counts as silent when it
  is not installed, takes too long or reports a failure.
Main exports: CommandResult, CommandResult.output?, Git, Site, Site.trackedFiles?, Site.commit?
-/
import RepoAtlas.Disk.Basic
import RepoAtlas.Ignore.Pattern

namespace RepoAtlas.Repository

open Disk

/-- What becomes of a command. -/
inductive CommandResult where
  | finished (code : Int) (output : String)
  | unavailable
  | timedOut
deriving DecidableEq, Repr, Inhabited

/-- The output of a command that succeeded. -/
def CommandResult.output? : CommandResult → Option String
  | .finished code output => if code = 0 then some output else none
  | .unavailable => none
  | .timedOut => none

/-- The answers of version control: the files it would track, and the present commit. -/
structure Git where
  listing : CommandResult := .unavailable
  head : CommandResult := .unavailable
deriving DecidableEq, Repr, Inhabited

/-- A repository in its place on a disk.  The path of its root is free of links. -/
structure Site where
  disk : Disk
  root : List String
  git : Git := {}
  /-- How ignore patterns are read. -/
  matcher : Ignore.Matcher := Ignore.matcher
deriving Inhabited

namespace Site

/-- Whether the repository is under version control. -/
def isVersioned (site : Site) : Bool :=
  site.disk.pathExists (site.root ++ [".git"])

/-- The output of a command of version control. -/
def outputOf (site : Site) (result : CommandResult) : Option String :=
  if site.isVersioned then result.output? else none

/-- The files that version control would track. -/
def trackedFiles? (site : Site) : Option (List String) :=
  (site.outputOf site.git.listing).map
    (fun output => (Text.lines output.toList).map String.ofList)

/-- The present commit, if version control says anything about it. -/
def commit? (site : Site) : Option String :=
  ((site.outputOf site.git.head).filter (· ≠ "")).map Text.stripText

/-- The path of the root as text. -/
def pathText (site : Site) : String :=
  Disk.pathText site.root

/-- The name of the root directory. -/
def name (site : Site) : String :=
  site.root.getLast?.getD ""

end Site

end RepoAtlas.Repository
