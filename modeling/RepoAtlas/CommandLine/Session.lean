/-
Module: RepoAtlas.CommandLine.Session
Purpose: What the command line prints, and what it leaves on the disk.
  Findings go to the output, everything said about the run to the other stream.  A repository of
  which nothing could be parsed is a failure.
Main exports: Environment, Reply, Ending, changesLine, replyTo, obstacleAt?, stateDirectoryAt,
  keepSnapshot, execute
-/
import RepoAtlas.CommandLine.Options
import RepoAtlas.Disk.Edit
import RepoAtlas.Disk.Resolve
import RepoAtlas.Overview.Markdown
import RepoAtlas.Repository.Update
import RepoAtlas.Toon.Document

namespace RepoAtlas.CommandLine

open Disk Repository Store

/-- What a command sees of the machine. -/
structure Environment where
  disk : Disk
  workingDirectory : List String
  git : Git := {}
  /-- How sources are read. -/
  grammar : Source.Grammar := Source.statements
  /-- How ignore patterns are read. -/
  matcher : Ignore.Matcher := Ignore.matcher
  /-- How deep the documents of the state directory may be nested. -/
  nesting : Nesting := default
  /-- The present time in seconds. -/
  now : Number.Binary64
deriving Inhabited

/-- What a command prints and its exit code. -/
structure Reply where
  exitCode : Nat
  output : String := ""
  errors : String := ""
deriving DecidableEq, Repr, Inhabited

/-- How a command ends. -/
inductive Ending where
  | replied (reply : Reply)
  | refused (flaw : UsageError)
  | helped
  | failed (failure : RunFailure)
  /-- The snapshot cannot be kept in the state directory. -/
  | unwritable (failure : Failure)
deriving DecidableEq, Repr, Inhabited

/-- Lines, each with its end. -/
def linesText (lines : List String) : String :=
  String.join (lines.map (· ++ "\n"))

/-- The languages of source files in order of their names. -/
def supportedLanguages : List String :=
  ((Source.languages.map Prod.snd).eraseDups).mergeSort (· ≤ ·)

/-- Whether a language was asked for that is not supported. -/
def unsupportedLanguage? (options : Options) : Option String :=
  (options.language.filter (· ≠ "")).filter (fun name => !supportedLanguages.contains name)

/-- The line that refuses a language. -/
def unsupportedLine (language : String) : String :=
  "Error: unsupported language '" ++ language ++ "'. Supported: " ++
    String.intercalate ", " supportedLanguages

/-- The line that sums up the changes. -/
def changesLine (changes : Changes) : String :=
  "Changes: " ++ toString changes.added.length ++ " added, " ++
    toString changes.modified.length ++ " modified, " ++
    toString changes.deleted.length ++ " deleted (" ++
    (if changes.needsFullAnalysis then "full" else "partial") ++ " reanalysis)"

/-- The line for a repository without changes. -/
def upToDateLine (name : String) (previous : Option Snapshot) : String :=
  let commit := Text.printable ((previous.map Snapshot.commit).getD [])
  name ++ " is up to date (commit " ++ (if commit = "" then "unknown" else commit) ++ ")."

/-- The findings in the wanted format. -/
def findings (options : Options) (analysis : Analysis) : String :=
  match options.format with
  | .toon => Toon.encode analysis.toSurvey options.maxFiles
  | .mermaid => Diagram.render analysis.architecture Diagram.defaultBound true
  | .markdown => Overview.markdown analysis.overview

/-- What is printed for the result of a run. -/
def replyTo (options : Options) (analysis : Analysis) : Reply :=
  let warnings := analysis.warnings.map ("Warning: " ++ ·)
  if analysis.files.keys.all (isManifest ·) then
    { exitCode := 1, errors := linesText (warnings ++ ["No parseable files found."]) }
  else if !analysis.hasParsed then
    { exitCode := 1, errors := linesText (warnings ++ ["No files could be parsed."]) }
  else
    let summary := if options.stateDirectory.isSome then [changesLine analysis.changes] else []
    { exitCode := 0
      output := linesText [findings options analysis]
      errors := linesText (warnings ++ summary) }

/-- The document under a name in a directory.  What cannot be read is as good as nothing: whether
something can be written in its place is up to the disk. -/
def documentAt? (disk : Disk) (directory : List String) (name : String) : Option (String × Slot) :=
  match disk.readFile (directory ++ [name]) with
  | .ok bytes => some (name, .file bytes)
  | .error _ => none

/-- Why it cannot be told whether a file has a name in a directory. -/
def obstacleAt? (disk : Disk) (directory : List String) (name : String) : Option Obstacle :=
  match disk.locate (directory ++ [name]) with
  | .ok _ => none
  | .error flaw => if raised : flaw.saysNoFile = false then some ⟨flaw, raised⟩ else none

/-- The documents in the directory at a path, none if there is no directory. -/
def documentsAt (disk : Disk) (path : List String) : OrderedMap String Slot :=
  match disk.locate path with
  | .ok ⟨_, .directory children⟩ =>
    OrderedMap.ofList (children.filterMap (fun child => documentAt? disk path child.1))
  | _ => OrderedMap.ofList []

/-- The state directory at a path. -/
def stateDirectoryAt (disk : Disk) (path : List String) : StateDirectory :=
  { path := pathText (path ++ [""])
    slots := documentsAt disk path
    obstacle? := obstacleAt? disk path }

/-- The document of a repository in a store. -/
def documentOf (store : Option Store) (key : String) : Option (List UInt8) :=
  match store with
  | some (.documents directory _) =>
    match directory.slots.get? (keyFileName key) with
    | some (.file bytes) => some bytes
    | _ => none
  | _ => none

/-- The disk after a run has kept its snapshot in the state directory at a path.  A run that has
parsed nothing keeps none. -/
def keepSnapshot (disk : Disk) (path : List String) (key : String) (outcome : Run) : Outcome :=
  match documentOf outcome.store key, outcome.result.any Analysis.hasParsed with
  | some bytes, true => disk.writeInto (path ++ [keyFileName key]) bytes
  | _, _ => { disk := disk }

/-- The path of the repository that is asked for, which must be a directory. -/
def rootOf (environment : Environment) (text : String) : Except UsageError (List String) :=
  let path := environment.disk.resolve (segmentsFrom environment.workingDirectory text)
  match environment.disk.locate path with
  | .ok ⟨_, .directory _⟩ => .ok path
  | .ok _ => .error (.notDirectory text)
  | .error _ => .error (.noSuchDirectory text)

/-- The place of the state directory, where nothing else may stand. -/
def statePathOf (environment : Environment) (text : String) : Except UsageError (List String) :=
  let path := segmentsFrom environment.workingDirectory text
  match environment.disk.locate path with
  | .ok ⟨_, .directory _⟩ => .ok path
  | .ok _ => .error (.notDirectory text)
  | .error _ => .ok path

/-- Runs an understood command over the repository at a path. -/
def executeIn (environment : Environment) (options : Options) (path : List String)
    (statePath : Option (List String)) : Ending × Disk :=
  let disk := environment.disk
  match unsupportedLanguage? options with
  | some language =>
    (.replied { exitCode := 1, errors := linesText [unsupportedLine language] }, disk)
  | none =>
    let site : Site :=
      { disk := disk, root := disk.resolve path, git := environment.git,
        matcher := environment.matcher }
    let store := statePath.map (fun path =>
      Store.documents (stateDirectoryAt disk path) environment.nesting)
    let runOptions : RunOptions :=
      { commit := options.commit, language := options.language,
        sizeLimit := some options.maxFileSize, now := environment.now }
    match run environment.grammar site runOptions store with
    | .error failure => (.failed failure, disk)
    | .ok outcome =>
      match outcome.result with
      | none =>
        let previous := (store.map (·.read site.pathText)).bind (fun read => read.toOption.join)
        let line := upToDateLine (path.getLast?.getD "") previous
        (.replied { exitCode := 0, errors := linesText [line] }, disk)
      | some analysis =>
        let kept : Outcome :=
          match statePath with
          | none => { disk := disk }
          | some statePath => keepSnapshot disk statePath site.pathText outcome
        match kept.failure with
        | some failure => (.unwritable failure, kept.disk)
        | none => (.replied (replyTo options analysis), kept.disk)

/-- Runs a command line. -/
def execute (environment : Environment) (arguments : List String) : Ending × Disk :=
  match Options.parse arguments with
  | .error flaw => (.refused flaw, environment.disk)
  | .ok options =>
    if options.help then (.helped, environment.disk)
    else
      match rootOf environment options.root with
      | .error flaw => (.refused flaw, environment.disk)
      | .ok root =>
        match options.stateDirectory with
        | none => executeIn environment options root none
        | some text =>
          match statePathOf environment text with
          | .error flaw => (.refused flaw, environment.disk)
          | .ok path => executeIn environment options root (some path)

end RepoAtlas.CommandLine
