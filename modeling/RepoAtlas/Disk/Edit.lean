/-
Module: RepoAtlas.Disk.Edit
Purpose: Writing to a disk: directories, files, links, and removal.
  Making directories and writing files fail where the disk does not allow them, and what was made
  until then stays.
Main exports: Failure, Outcome, createDirectory, ensureDirectory, writeFile, writeInto, makeLink,
  remove
-/
import RepoAtlas.Disk.Basic

namespace RepoAtlas.Disk

/-- The children of an entry, none unless it is a directory. -/
def Entry.children : Entry → List (String × Entry)
  | .directory children => children
  | _ => []

/-- Puts an entry under a name, in its old place if the name is taken. -/
def putChild (name : String) (entry : Entry) : List (String × Entry) → List (String × Entry)
  | [] => [(name, entry)]
  | (other, old) :: rest =>
    if other = name then (name, entry) :: rest else (other, old) :: putChild name entry rest

/-- Changes the entry at a path, making the directories above it.  The change sees what stands there
now and gives what is to stand there, or nothing for removal. -/
def alterAt (change : Option Entry → Option Entry) :
    (segments : List String) → Option Entry → Option Entry
  | [], entry => change entry
  | segment :: rest, entry =>
    let children := (entry.map Entry.children).getD []
    match alterAt change rest (childNamed segment children) with
    | some changed => some (.directory (putChild segment changed children))
    | none => some (.directory (children.filter (fun child => child.1 ≠ segment)))

/-- The path, free of links, that the longest existing beginning of a path leads to, followed by the
rest of the path.  `rest` holds the segments already cut off. -/
def physicalFrom (disk : Disk) (rest : List String) : (reversed : List String) → List String
  | [] => rest
  | last :: above =>
    match disk.locate (last :: above).reverse with
    | .ok located => located.path ++ rest
    | .error _ => physicalFrom disk (last :: rest) above

/-- Where a path leads when links are followed as far as there is something to follow. -/
def physical (disk : Disk) (path : List String) : List String :=
  physicalFrom disk [] path.reverse

/-- Changes the entry at a path without links. -/
def alter (disk : Disk) (path : List String) (change : Option Entry → Option Entry) : Disk :=
  { disk with root := (alterAt change path (some disk.root)).getD disk.root }

/-- A flaw together with the path that has it. -/
structure Failure where
  flaw : AccessFlaw
  path : List String
deriving DecidableEq, Repr, Inhabited

/-- The sentence for a failure. -/
def Failure.message (failure : Failure) : String :=
  failure.flaw.message (pathText failure.path)

/-- What an operation leaves of a disk, and what stopped it if it was stopped. -/
structure Outcome where
  disk : Disk
  failure : Option Failure := none
deriving Inhabited

/-- A second operation on what a first one leaves, unless that was stopped. -/
def Outcome.andThen (outcome : Outcome) (next : Disk → Outcome) : Outcome :=
  match outcome.failure with
  | some _ => outcome
  | none => next outcome.disk

/-- Makes a directory in one that is there. -/
def createDirectory (disk : Disk) (path : List String) : Except AccessFlaw Disk :=
  match path.getLast? with
  | none => .error .alreadyExists
  | some name =>
    match disk.locate path.dropLast with
    | .error flaw => .error flaw
    | .ok ⟨real, .directory children⟩ =>
      if name = ".." || (childNamed name children).isSome then .error .alreadyExists
      else if nameLimit < name.utf8ByteSize then .error .nameTooLong
      else .ok (disk.alter (real ++ [name]) (fun _ => some (.directory [])))
    | .ok _ => .error .notDirectory

/-- The outcome of making a directory: it counts as made if a directory is there after all. -/
def settledAt (disk : Disk) (path : List String) : Except AccessFlaw Disk → Outcome
  | .ok made => { disk := made }
  | .error flaw =>
    if flaw ≠ .missing && disk.isDirectory path then { disk := disk }
    else { disk := disk, failure := some ⟨flaw, path⟩ }

/-- Makes a directory, and the directory above it first if that is missing.  The path is given from
its last segment on. -/
def ensureDirectoryFrom (disk : Disk) : (reversed : List String) → Outcome
  | [] => { disk := disk }
  | last :: above =>
    let path := (last :: above).reverse
    match disk.createDirectory path with
    | .error .missing =>
      (ensureDirectoryFrom disk above).andThen
        (fun disk => disk.settledAt path (disk.createDirectory path))
    | result => disk.settledAt path result

/-- Makes a directory and all directories above it, as far as they are missing. -/
def ensureDirectory (disk : Disk) (path : List String) : Outcome :=
  disk.ensureDirectoryFrom path.reverse

/-- Writes a file, through a link if one stands at the path. -/
def writeFile (disk : Disk) (path : List String) (bytes : List UInt8) : Outcome :=
  match disk.place path with
  | .error flaw => { disk := disk, failure := some ⟨flaw, path⟩ }
  | .ok ⟨real, none⟩ => { disk := disk.alter real (fun _ => some (.file bytes)) }
  | .ok ⟨real, some (.file _)⟩ => { disk := disk.alter real (fun _ => some (.file bytes)) }
  | .ok _ => { disk := disk, failure := some ⟨.isDirectory, path⟩ }

/-- Writes a file after making the directory it stands in. -/
def writeInto (disk : Disk) (path : List String) (bytes : List UInt8) : Outcome :=
  (disk.ensureDirectory path.dropLast).andThen (·.writeFile path bytes)

/-- The path of an entry itself: links are followed above it only. -/
def physicalEntry (disk : Disk) (path : List String) : List String :=
  disk.physical path.dropLast ++ path.getLast?.toList

/-- Makes a link to an absolute path. -/
def makeLink (disk : Disk) (path target : List String) : Disk :=
  disk.alter (disk.physicalEntry path) (fun _ => some (.link target))

/-- Removes the entry at a path. -/
def remove (disk : Disk) (path : List String) : Disk :=
  disk.alter (disk.physicalEntry path) (fun _ => none)

/-- Forbids reading a path. -/
def deny (disk : Disk) (path : List String) : Disk :=
  { disk with denied := pathText path :: disk.denied }

/-- Forbids measuring a path. -/
def forbidMeasuring (disk : Disk) (path : List String) : Disk :=
  { disk with unmeasured := pathText path :: disk.unmeasured }

end RepoAtlas.Disk
