/-
Module: RepoAtlas.Main
Purpose: The command line itself.
  The part of the file system that a run looks at is loaded as a disk, the run is computed, and what
  it prints and keeps is written out.  Version control is not asked, so the ignore file decides which
  files count.
Main exports: main
-/
import RepoAtlas.CommandLine.Session
import Std.Time.DateTime.Timestamp

open RepoAtlas RepoAtlas.Disk RepoAtlas.CommandLine

namespace RepoAtlas.Main

/-- The bytes of a file as a list. -/
def byteList (bytes : ByteArray) : List UInt8 :=
  bytes.data.toList

/-- A list of bytes as the content of a file. -/
def byteArray (bytes : List UInt8) : ByteArray :=
  ⟨bytes.toArray⟩

/-- Whether a run looks into a file of the given name. -/
def isLookedInto (name : String) : Bool :=
  name = ".gitignore" || Repository.isOfInterest none name

/-- A disk with a file at a path, and with the directories above it. -/
def withFile (disk : Disk) (path : List String) (bytes : List UInt8) : Disk :=
  (disk.writeInto path bytes).disk

/-- A disk with a directory at a path, and with the directories above it. -/
def withDirectory (disk : Disk) (path : List String) : Disk :=
  (disk.ensureDirectory path).disk

/-- Loads the file at a path: its content if a run looks into it, and a denial if it cannot be
read. -/
def loadFile (disk : Disk) (path : List String) (looked : Bool) : IO Disk := do
  if !looked then return withFile disk path []
  try
    let bytes ← IO.FS.readBinFile (pathText path)
    return withFile disk path (byteList bytes)
  catch _ => return (withFile disk path []).deny path

/-- Loads the directory at a path, without the directories that a run does not enter. -/
partial def loadDirectory (disk : Disk) (path : List String) : IO Disk := do
  let mut disk := withDirectory disk path
  let here ← IO.FS.realPath (pathText path)
  for entry in ← here.readDir do
    let name := entry.fileName
    let place := path ++ [name]
    match (← entry.path.symlinkMetadata).type with
    | .symlink =>
      if name = ".gitignore" then disk ← loadFile disk place true
      else disk := disk.makeLink place place
    | .dir =>
      if Repository.isEntered name then disk ← loadDirectory disk place
      else disk := withDirectory disk place
    | _ => disk ← loadFile disk place (isLookedInto name)
  return disk

/-- The segments of the real path of a text, if something stands there. -/
def realSegments (text : String) : IO (Option (List String)) := do
  try
    let path ← IO.FS.realPath text
    return if ← path.pathExists then some (pathSegments path.toString) else none
  catch _ => return none

/-- Loads whatever stands at a text: a directory without its contents, or a file. -/
def loadPlace (disk : Disk) (text : String) (path : List String) : IO Disk := do
  let place ← IO.FS.realPath text
  if ← place.isDir then return withDirectory disk path
  return withFile disk path []

/-- Loads the document of a repository in a state directory. -/
def loadDocument (disk : Disk) (directory : List String) (key : String) : IO Disk := do
  let path := directory ++ [Store.keyFileName key]
  if (← realSegments (pathText path)).isSome then loadFile disk path true else return disk

/-- The present time. -/
def presentTime : IO Number.Binary64 := do
  let now ← Std.Time.Timestamp.now
  let nanoseconds := now.toNanosecondsSinceUnixEpoch.val
  return Number.Binary64.ofRat ((nanoseconds : Rat) / 1000000000)

/-- Loads what a run of the given options looks at. -/
def loadFor (options : Options) (workingDirectory : List String) : IO Disk := do
  let empty : Disk := {}
  let mut disk := withDirectory empty workingDirectory
  let root := segmentsFrom workingDirectory options.root
  match ← realSegments options.root with
  | none => pure ()
  | some path =>
    let place ← IO.FS.realPath options.root
    disk ← if ← place.isDir then loadDirectory disk path else loadPlace disk options.root path
    if path ≠ root then disk := disk.makeLink root path
    if let some text := options.stateDirectory then
      let directory := segmentsFrom workingDirectory text
      if let some real ← realSegments (pathText directory) then
        disk ← loadPlace disk (pathText directory) real
        if real ≠ directory then disk := disk.makeLink directory real
        disk ← loadDocument disk directory (pathText path)
  return disk

/-- Writes out the document that a run has left in a state directory. -/
def keepDocument (before after : Disk) (directory : List String) (key : String) : IO Unit := do
  let path := directory ++ [Store.keyFileName key]
  match after.readFile path with
  | .ok bytes =>
    if (before.readFile path).toOption ≠ some bytes then
      IO.FS.createDirAll (pathText directory)
      IO.FS.writeBinFile (pathText path) (byteArray bytes)
  | .error _ => pure ()

/-- Prints how a command ended, and gives its exit code. -/
def report (ending : Ending) : IO UInt32 := do
  match ending with
  | .replied reply =>
    IO.print reply.output
    IO.eprint reply.errors
    return UInt32.ofNat reply.exitCode
  | .refused flaw =>
    IO.eprintln ("Error: " ++ flaw.message)
    return 2
  | .helped =>
    IO.println "Usage: repo-atlas [OPTIONS] [ROOT]"
    return 0
  | .failed (.discovery flaw) =>
    IO.eprintln flaw.message
    return 1
  | .failed (.store flaw) =>
    IO.eprintln flaw.message
    return 1
  | .failed (.analysis (.parser reason)) =>
    IO.eprintln reason
    return 1
  | .failed (.analysis (.content flaw)) =>
    IO.eprintln flaw.message
    return 1
  | .failed (.keeping flaw) =>
    IO.eprintln flaw.message
    return 1
  | .unwritable failure =>
    IO.eprintln failure.message
    return 1

/-- Runs a command line on the file system. -/
def runOn (arguments : List String) : IO UInt32 := do
  match Options.parse arguments with
  | .error flaw => report (.refused flaw)
  | .ok options =>
    let workingDirectory := pathSegments (← IO.currentDir).toString
    let disk ← loadFor options workingDirectory
    let environment : Environment :=
      { disk := disk, workingDirectory := workingDirectory, now := ← presentTime }
    let (ending, after) := execute environment arguments
    if let some text := options.stateDirectory then
      if let .ok root := rootOf environment options.root then
        keepDocument disk after (segmentsFrom workingDirectory text) (pathText root)
    report ending

end RepoAtlas.Main

/-- Surveys the repository that the command line names. -/
def main (arguments : List String) : IO UInt32 :=
  RepoAtlas.Main.runOn arguments
