/-
Module: RepoAtlas.Disk.Basic
Purpose: A disk as a value: directories, files and symbolic links, and the paths that may not be
  read or measured.
  Absolute paths are lists of segments.  Looking up a path follows links as far as a bounded number
  of them, and an ascent leads to the directory in which the present one really stands.
Main exports: Entry, Disk, AccessFlaw, AccessFlaw.message, Obstacle, Place, place, Located, locate,
  readFile
-/
import RepoAtlas.Json.Value
import RepoAtlas.Path

namespace RepoAtlas

namespace Disk

/-- What stands under a name.  Names are texts of UTF-8: a name of bytes that are not UTF-8 cannot be
written down, and no disk here has one. -/
inductive Entry where
  | file (bytes : List UInt8)
  /-- A symbolic link with the absolute path it leads to. -/
  | link (target : List String)
  | directory (children : List (String × Entry))
deriving Inhabited

end Disk

/-- A disk.  Reading a denied path fails although the path is there, and an unmeasured path does not
tell its size. -/
structure Disk where
  root : Disk.Entry := .directory []
  /-- Absolute paths that may not be read. -/
  denied : List String := []
  /-- Absolute paths that may not be measured. -/
  unmeasured : List String := []
deriving Inhabited

namespace Disk

/-- Why a path cannot be reached, read or written. -/
inductive AccessFlaw where
  | missing
  | denied
  | alreadyExists
  | notDirectory
  | isDirectory
  | nameTooLong
  | tooManyLinks
deriving DecidableEq, Repr, Inhabited

namespace AccessFlaw

/-- The number of a flaw in the usual numbering of system errors. -/
def number : AccessFlaw → Nat
  | .missing => 2
  | .denied => 13
  | .alreadyExists => 17
  | .notDirectory => 20
  | .isDirectory => 21
  | .nameTooLong => 36
  | .tooManyLinks => 40

/-- The description of a flaw. -/
def description : AccessFlaw → String
  | .missing => "No such file or directory"
  | .denied => "Permission denied"
  | .alreadyExists => "File exists"
  | .notDirectory => "Not a directory"
  | .isDirectory => "Is a directory"
  | .nameTooLong => "File name too long"
  | .tooManyLinks => "Too many levels of symbolic links"

/-- The sentence for a flaw at a path. -/
def message (flaw : AccessFlaw) (path : String) : String :=
  "[Errno " ++ toString flaw.number ++ "] " ++ flaw.description ++ ": " ++ Text.quotedText path

/-- Whether a path with the flaw just counts as a path where no file is.  Any other flaw is raised by
the question for one. -/
def saysNoFile : AccessFlaw → Bool
  | .missing | .notDirectory | .tooManyLinks => true
  | .denied | .alreadyExists | .isDirectory | .nameTooLong => false

end AccessFlaw

/-- A flaw that the mere question for a file raises. -/
structure Obstacle where
  flaw : AccessFlaw
  raised : flaw.saysNoFile = false := by decide
deriving DecidableEq, Repr

/-- The text of an absolute path. -/
def pathText (segments : List String) : String :=
  "/" ++ String.intercalate "/" segments

/-- The segments of a path.  Empty segments and single dots say nothing. -/
def pathSegments (path : String) : List String :=
  (Text.splitText '/' path).filter (fun segment => segment ≠ "" && segment ≠ ".")

/-- The segments of a path as seen from a directory, which an absolute path ignores. -/
def segmentsFrom (directory : List String) (path : String) : List String :=
  if Text.startsWith path "/" then pathSegments path else directory ++ pathSegments path

/-- The text of a path as seen from a directory.  An absolute path keeps two slashes at its
beginning if it has exactly two. -/
def textFrom (directory : List String) (path : String) : String :=
  let text := pathText (segmentsFrom directory path)
  if Path.leadingSlashes path.toList = 2 then "/" ++ text else text

/-- The entry under a name among the children of a directory. -/
def childNamed (name : String) : List (String × Entry) → Option Entry
  | [] => none
  | (other, entry) :: rest => if other = name then some entry else childNamed name rest

/-- Where a path leads: the path, free of links, at which an entry stands, or at which nothing stands
yet although the directory above it is there. -/
structure Place where
  path : List String
  entry : Option Entry
deriving Inhabited

/-- An entry together with the path, free of links, at which it stands. -/
structure Located where
  path : List String
  entry : Entry
deriving Inhabited

/-- How many links are followed on the way to one entry. -/
def linkLimit : Nat := 40

/-- The greatest number of bytes of a name. -/
def nameLimit : Nat := 255

/-- The greatest number of bytes of a path. -/
def pathLimit : Nat := 4095

/-- Follows segments from an entry.  `above` holds the directories on the way to it, innermost
first, each with the name that was taken in it. -/
def placeFrom (root : Entry) (fuel : Nat) (above : List (String × Entry)) (here : Entry)
    (segments : List String) : Except AccessFlaw Place :=
  match segments with
  | [] => .ok ⟨(above.map Prod.fst).reverse, some here⟩
  | segment :: rest =>
    match here with
    | .directory children =>
      if segment = ".." then
        match above with
        | [] => placeFrom root fuel [] here rest
        | (_, outer) :: further => placeFrom root fuel further outer rest
      else if nameLimit < segment.utf8ByteSize then .error .nameTooLong
      else
        match childNamed segment children with
        | none =>
          if rest.isEmpty then .ok ⟨(above.map Prod.fst).reverse ++ [segment], none⟩
          else .error .missing
        | some (.link target) =>
          match fuel with
          | 0 => .error .tooManyLinks
          | fuel + 1 => placeFrom root fuel [] root (target ++ rest)
        | some entry => placeFrom root fuel ((segment, here) :: above) entry rest
    | _ => .error .notDirectory
termination_by (fuel, segments.length)

/-- Where an absolute path leads, links followed. -/
def place (disk : Disk) (path : List String) : Except AccessFlaw Place :=
  if pathLimit < (pathText path).utf8ByteSize then .error .nameTooLong
  else placeFrom disk.root linkLimit [] disk.root path

/-- The entry at an absolute path, links followed. -/
def locate (disk : Disk) (path : List String) : Except AccessFlaw Located :=
  match disk.place path with
  | .error flaw => .error flaw
  | .ok ⟨_, none⟩ => .error .missing
  | .ok ⟨real, some entry⟩ => .ok ⟨real, entry⟩

/-- Whether something stands at a path. -/
def pathExists (disk : Disk) (path : List String) : Bool :=
  (disk.locate path).isOk

/-- Whether a file stands at a path. -/
def isFile (disk : Disk) (path : List String) : Bool :=
  match disk.locate path with
  | .ok ⟨_, .file _⟩ => true
  | _ => false

/-- Whether a directory stands at a path. -/
def isDirectory (disk : Disk) (path : List String) : Bool :=
  match disk.locate path with
  | .ok ⟨_, .directory _⟩ => true
  | _ => false

/-- The bytes of the file at a path that is written as the given text. -/
def readFileAs (disk : Disk) (text : String) (path : List String) :
    Except AccessFlaw (List UInt8) :=
  if disk.denied.contains text then .error .denied
  else
    match disk.locate path with
    | .error flaw => .error flaw
    | .ok ⟨_, .file bytes⟩ => .ok bytes
    | .ok _ => .error .isDirectory

/-- The bytes of the file at a path. -/
def readFile (disk : Disk) (path : List String) : Except AccessFlaw (List UInt8) :=
  disk.readFileAs (pathText path) path

end Disk

end RepoAtlas
