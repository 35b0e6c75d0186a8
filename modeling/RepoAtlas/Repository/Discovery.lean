/-
Module: RepoAtlas.Repository.Discovery
Purpose: The files of a repository that an analysis reads.
  Hidden names, links and directories of tools are passed over.  A file must be tracked or, without
  version control, not ignored; it must be a manifest or a source file of the wanted language; and it
  must not be too large.
  What is ignored is told by predicates, which are read off the ignore file and the filter.
Main exports: Filter, Listing, DiscoveryFlaw, Found, walk, isWanted, discover, discoverFiles
-/
import RepoAtlas.Repository.Git
import RepoAtlas.Snapshot.Changes
import RepoAtlas.Source.Summary

namespace RepoAtlas.Repository

open Disk Ignore Text

/-- The size in bytes above which a file is passed over, unless another is asked for. -/
def defaultSizeLimit : Int := 1000000

/-- Directories that are never entered. -/
def skippedDirectories : List String := [
  "__pycache__", "node_modules", ".git", ".hg", ".svn", "venv", ".venv", "env", "build", "dist",
  "coverage", ".tox", ".mypy_cache", ".ruff_cache", ".pytest_cache", "egg-info"]

/-- Whether a name begins with a dot. -/
def isHidden (name : String) : Bool :=
  startsWith name "."

/-- Whether a directory of the given name is entered. -/
def isEntered (name : String) : Bool :=
  !skippedDirectories.contains name && !isHidden name

/-- Which files are asked for. -/
structure Filter where
  /-- Further ignore patterns, one a line. -/
  extraIgnores : List String := []
  /-- The only language of source files, empty or absent for all. -/
  language : Option String := none
  sizeLimit : Option Int := some defaultSizeLimit
deriving DecidableEq, Repr, Inhabited

/-- A file that a walk comes by. -/
structure Found where
  /-- The path from the root of the repository. -/
  path : List String
  size : Nat
deriving DecidableEq, Repr, Inhabited

mutual

/-- The files at or below an entry of the given name, in a directory with the given path. -/
def walkEntry (above : List String) (name : String) : Entry → List Found
  | .file bytes => if isHidden name then [] else [⟨above ++ [name], bytes.length⟩]
  | .link _ => []
  | .directory children => if isEntered name then walk (above ++ [name]) children else []

/-- The files below a directory with the given path and children. -/
def walk (above : List String) : List (String × Entry) → List Found
  | [] => []
  | (name, entry) :: rest => walkEntry above name entry ++ walk above rest

end

/-- Which files the repository counts as its own. -/
inductive Listing where
  | tracked (paths : List String)
  | ignoring (ignored : String → Bool)

/-- Whether a path counts as the repository's own. -/
def Listing.admits : Listing → String → Bool
  | .tracked paths, path => paths.contains path
  | .ignoring ignored, path => !ignored path

/-- Why the files of a repository cannot be told. -/
inductive DiscoveryFlaw where
  /-- The ignore file is not UTF-8. -/
  | undecodable (malformed : Utf8.Malformed)
  | invalidPattern (invalid : InvalidPattern)
  /-- The ignore file cannot be read. -/
  | unreadable (path : String) (flaw : AccessFlaw)
deriving DecidableEq, Repr, Inhabited

/-- The sentence for a flaw. -/
def DiscoveryFlaw.message : DiscoveryFlaw → String
  | .undecodable malformed => malformed.message
  | .invalidPattern invalid => invalid.message
  | .unreadable path flaw => flaw.message path

/-- The lines of the ignore file, none if there is no such file. -/
def ignoreLines (site : Site) : Except DiscoveryFlaw (List (List Char)) :=
  let path := site.root ++ [".gitignore"]
  if site.disk.isFile path then
    match site.disk.readFile path with
    | .error flaw => .error (.unreadable (Disk.pathText path) flaw)
    | .ok bytes =>
      match Utf8.decode bytes with
      | .error malformed => .error (.undecodable malformed)
      | .ok chars => .ok (lines chars)
  else .ok []

/-- What the ignore file ignores. -/
def ignoredBy (site : Site) : Except DiscoveryFlaw (String → Bool) := do
  (site.matcher (← ignoreLines site)).mapError .invalidPattern

/-- What the filter excludes besides. -/
def excludedBy (site : Site) (filter : Filter) : Except DiscoveryFlaw (String → Bool) :=
  if filter.extraIgnores.isEmpty then .ok (fun _ => false)
  else (site.matcher (filter.extraIgnores.map String.toList)).mapError .invalidPattern

/-- Which files the repository counts as its own: those tracked, or those not ignored. -/
def listingOf (site : Site) : Except DiscoveryFlaw Listing :=
  match site.trackedFiles? with
  | some paths => .ok (.tracked paths)
  | none => (ignoredBy site).map .ignoring

/-- Whether a file is of interest by its path: a manifest, or a source file of the wanted language. -/
def isOfInterest (language : Option String) (path : String) : Bool :=
  isManifest path ||
    (match Source.languageOf path with
      | none => false
      | some found => (language.filter (· ≠ "")).all (· = found))

/-- Whether a size is within the limit. -/
def fits (limit : Option Int) (size : Nat) : Bool :=
  limit.all ((size : Int) ≤ ·)

/-- The size of a found file as far as it can be measured. -/
def measuredSize (site : Site) (found : Found) : Nat :=
  if site.disk.unmeasured.contains (Disk.pathText (site.root ++ found.path)) then 0
  else found.size

/-- The text of a path from the root of the repository. -/
def relativeText (path : List String) : String :=
  String.intercalate "/" path

/-- Whether a found file is read by an analysis. -/
def isWanted (site : Site) (listing : Listing) (excluded : String → Bool) (filter : Filter)
    (found : Found) : Bool :=
  let path := relativeText found.path
  listing.admits path && !excluded path && isOfInterest filter.language path &&
    fits filter.sizeLimit (measuredSize site found)

/-- All files that a walk through the repository comes by. -/
def allFiles (site : Site) : List Found :=
  match site.disk.locate site.root with
  | .ok ⟨_, .directory children⟩ => walk [] children
  | _ => []

/-- The files of a repository that an analysis reads, in code-point order of their paths, given which
files are its own and which are excluded besides. -/
def discover (site : Site) (listing : Listing) (excluded : String → Bool) (filter : Filter) :
    List String :=
  let wanted := (allFiles site).filter (isWanted site listing excluded filter)
  (wanted.map (fun found => relativeText found.path)).mergeSort (· ≤ ·)

/-- The files of a repository that an analysis reads, as version control or the ignore file and the
filter have it. -/
def discoverFiles (site : Site) (filter : Filter) : Except DiscoveryFlaw (List String) := do
  let listing ← listingOf site
  let excluded ← excludedBy site filter
  return discover site listing excluded filter

end RepoAtlas.Repository
