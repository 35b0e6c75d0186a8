/-
Module: RepoAtlas.Snapshot.Changes
Purpose: How the present contents differ from the last snapshot.
  Files are told apart by fingerprint.  A changed manifest, or a change of more than three tenths of
  the present files, asks for a new analysis of everything.
Main exports: manifestFiles, lastName, isManifest, Status, Changes, Changes.asksForFullAnalysis,
  Changes.detect
-/
import RepoAtlas.Snapshot.Basic

namespace RepoAtlas

open Number Text.Utf8

/-- Files whose change can alter how the whole repository is resolved or classified. -/
def manifestFiles : List String := [
  "package.json", "package-lock.json", "yarn.lock", "pnpm-lock.yaml", "tsconfig.json",
  "tsconfig.base.json", "turbo.json", "pyproject.toml", "requirements.txt", "setup.py",
  "setup.cfg", "Pipfile", "Pipfile.lock", "poetry.lock", "Cargo.toml", "Cargo.lock", "go.mod",
  "go.sum", "pom.xml", "build.gradle", ".eslintrc", ".eslintrc.js", ".eslintrc.json", "ruff.toml"]

/-- The code points after the last slash. -/
def lastName (path : Points) : Points :=
  (path.reverse.takeWhile (· ≠ .scalar '/')).reverse

/-- Whether a path names a manifest. -/
def isManifest (path : Points) : Bool :=
  manifestFiles.any (fun name => lastName path = points name)

/-- How a present file stands to the last snapshot. -/
inductive Status where
  | added
  | modified
  | unchanged
deriving DecidableEq, Repr, Inhabited

/-- The differences between the present contents and the last snapshot. -/
structure Changes where
  added : List Points := []
  modified : List Points := []
  deleted : List Points := []
  unchanged : List Points := []
  needsFullAnalysis : Bool := false
deriving DecidableEq, Repr, Inhabited

namespace Changes

/-- All paths that differ. -/
def changed (changes : Changes) : List Points :=
  changes.added ++ changes.modified ++ changes.deleted

/-- Whether anything differs. -/
def hasChanges (changes : Changes) : Bool :=
  !changes.changed.isEmpty

/-- The share of changed files above which everything is analysed again. -/
def fullAnalysisShare : Rat :=
  (Binary64.ofRatio false 3 10).toRat

/-- Whether changes to the given paths, among `total` present files, ask for a full analysis. -/
def asksForFullAnalysis (changed : List Points) (total : Nat) : Bool :=
  if changed.any isManifest then true
  else if changed.isEmpty then false
  else if total = 0 then true
  else fullAnalysisShare < (Binary64.ofRatio false changed.length total).toRat

/-- How a file stands to the recorded states.  A file that is not recorded is added, whatever its
content; only a recorded one is fingerprinted. -/
def statusOf (recorded : OrderedMap Points FileState) (path : Points) (content : Content) :
    Except Unencodable Status :=
  match recorded.get? path with
  | none => .ok .added
  | some state =>
    content.fingerprint.map (fun hash : String =>
      if state.hash = hash then .unchanged else .modified)

/-- The paths with the given status. -/
def pathsWith (statuses : OrderedMap Points Status) (status : Status) : List Points :=
  (statuses.entries.filter (fun entry => entry.2 = status)).map Prod.fst

/-- The changes that the statuses of the present files and the recorded paths show. -/
def ofStatuses (recorded : List Points) (statuses : OrderedMap Points Status) : Changes :=
  let added := pathsWith statuses .added
  let modified := pathsWith statuses .modified
  let deleted := recorded.filter (fun path => !statuses.contains path)
  { added := added
    modified := modified
    deleted := deleted
    unchanged := pathsWith statuses .unchanged
    needsFullAnalysis := asksForFullAnalysis (added ++ modified ++ deleted) statuses.size }

/-- The differences from a snapshot that may be compared. -/
def since (contents : OrderedMap Points Content) (previous : Snapshot) :
    Except Unencodable Changes :=
  (contents.traverse (statusOf previous.files)).map (ofStatuses previous.files.keys)

/-- The differences from the last snapshot.  Without a compatible one every file is added. -/
def detect (contents : OrderedMap Points Content) (previous : Option Snapshot) :
    Except Unencodable Changes :=
  match previous.filter Snapshot.isCompatible with
  | some snapshot => since contents snapshot
  | none => .ok { added := contents.keys, needsFullAnalysis := true }

end Changes

end RepoAtlas
