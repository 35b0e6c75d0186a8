/-
Module: RepoAtlas.Repository.Update
Purpose: A run over a repository with the snapshot of the last one.
  If nothing was added, modified or deleted since the snapshot, the run ends there.  Otherwise
  everything is analysed, and the new snapshot replaces the old one once at least one file was parsed.
Main exports: RunFailure, Job, Run, update, readFiles, RunOptions, gather, runWith, run
-/
import RepoAtlas.Analysis.Basic
import RepoAtlas.Repository.Discovery
import RepoAtlas.Store.Basic

namespace RepoAtlas.Repository

open Disk Store

/-- Why a run ends without result. -/
inductive RunFailure where
  | discovery (flaw : DiscoveryFlaw)
  | store (flaw : ReadFlaw)
  | analysis (failure : AnalysisFailure)
  /-- The new snapshot is not kept. -/
  | keeping (flaw : WriteFlaw)
deriving DecidableEq, Repr, Inhabited

/-- What a run is told apart from the contents and the store. -/
structure Job where
  /-- The key of the repository in the store. -/
  key : String
  name : String
  path : String
  commit : String
  stamp : Stamp
  parser : Parser := standardParser Source.statements

/-- What a run reports, nothing when the last snapshot is up to date, and the store after it. -/
structure Run where
  result : Option Analysis
  store : Option Store
deriving Inhabited

/-- The snapshot of the last run. -/
def previousSnapshot (store : Option Store) (key : String) :
    Except RunFailure (Option Snapshot) :=
  match store with
  | none => .ok none
  | some store => (store.read key).mapError .store

/-- Whether the contents are those of a snapshot. -/
def isUpToDate (contents : OrderedMap String Content) (previous : Option Snapshot) :
    Except RunFailure Bool :=
  match previous with
  | none => .ok false
  | some snapshot =>
    match Changes.detect (underPoints contents) (some snapshot) with
    | .ok changes => .ok (!changes.hasChanges)
    | .error flaw => .error (.analysis (.content flaw))

/-- The store after an analysis: it has the new snapshot if some file was parsed. -/
def storeAfter (store : Option Store) (key : String) (analysis : Analysis) :
    Except RunFailure (Option Store) :=
  match store with
  | none => .ok none
  | some store =>
    if analysis.hasParsed then
      ((store.write key analysis.snapshot).map some).mapError .keeping
    else .ok (some store)

/-- A run over the contents of a repository. -/
def update (job : Job) (contents : OrderedMap String Content) (store : Option Store) :
    Except RunFailure Run := do
  let previous ← previousSnapshot store job.key
  if ← isUpToDate contents previous then return ⟨none, store⟩
  let request : Request :=
    { name := job.name, repositoryPath := job.path, previous := previous, commit := job.commit,
      stamp := job.stamp, parser := job.parser }
  let analysis ← (analyze request contents).mapError .analysis
  let kept ← storeAfter store job.key analysis
  return ⟨some analysis, kept⟩

/-- The warning for a file that cannot be read. -/
def readWarning (site : Site) (path : String) (flaw : AccessFlaw) : String :=
  "failed to read " ++ path ++ ": " ++ flaw.message (textFrom site.root path)

/-- The contents of the files at the given paths, and a warning for each that cannot be read. -/
def readFiles (site : Site) (paths : List String) : OrderedMap String (List UInt8) × List String :=
  let attempts := paths.map (fun path =>
    (path, site.disk.readFileAs (textFrom site.root path) (segmentsFrom site.root path)))
  (OrderedMap.ofList (attempts.filterMap (fun (path, attempt) =>
      attempt.toOption.map (fun bytes => (path, bytes)))),
    attempts.filterMap (fun (path, attempt) =>
      match attempt with
      | .ok _ => none
      | .error flaw => some (readWarning site path flaw)))

/-- What a run over a repository on disk is asked for. -/
structure RunOptions where
  /-- The commit to record, by default the present one. -/
  commit : Option String := none
  language : Option String := none
  sizeLimit : Option Int := some defaultSizeLimit
  /-- The present time in seconds. -/
  now : Number.Binary64
deriving Inhabited

/-- The commit that a run records. -/
def recordedCommit (site : Site) (commit : Option String) : String :=
  (commit.or site.commit?).getD ""

/-- The contents of the discovered files that can be read, and a warning for each other one. -/
def gather (site : Site) (options : RunOptions) :
    Except DiscoveryFlaw (OrderedMap String (List UInt8) × List String) := do
  let paths ← discoverFiles site { language := options.language, sizeLimit := options.sizeLimit }
  return readFiles site paths

/-- What a run over a repository on disk tells the run over its contents. -/
def jobOf (parser : Parser) (site : Site) (options : RunOptions) : Job :=
  { key := site.pathText, name := site.name, path := site.pathText,
    commit := recordedCommit site options.commit, stamp := .real options.now, parser := parser }

/-- A run with warnings before its own. -/
def Run.warned (outcome : Run) (warnings : List String) : Run :=
  { outcome with
    result := outcome.result.map (fun analysis =>
      { analysis with warnings := warnings ++ analysis.warnings }) }

/-- A run over a repository on disk with a parser.  Files that cannot be read are warned of before
all else. -/
def runWith (parser : Parser) (site : Site) (options : RunOptions) (store : Option Store) :
    Except RunFailure Run := do
  let (contents, warnings) ← (gather site options).mapError .discovery
  let outcome ← update (jobOf parser site options)
    (contents.mapWithKey (fun _ bytes => .raw bytes)) store
  return outcome.warned warnings

/-- A run over a repository on disk whose sources are read by a grammar. -/
def run (grammar : Source.Grammar) (site : Site) (options : RunOptions) (store : Option Store) :
    Except RunFailure Run :=
  runWith (standardParser grammar) site options store

end RepoAtlas.Repository
