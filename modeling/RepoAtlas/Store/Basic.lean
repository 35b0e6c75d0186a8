/-
Module: RepoAtlas.Store.Basic
Purpose: Where snapshots are kept between runs: in memory, or as one document a repository in a
  directory.
  A missing, unreadable, malformed or outdated document reads as no snapshot.  A document with a
  number beyond the range of its field, or nested too deep, does not read at all, and neither does
  one under a name that cannot be looked up.  How deep a document may be nested depends on what the
  program is doing when it reads.
Main exports: Slot, StateDirectory, Nesting, ReadFlaw, WriteFlaw, document,
  StateDirectory.pathFor, StateDirectory.read, StateDirectory.refusal?, StateDirectory.write,
  MemoryStore, Store, read, write
-/
import RepoAtlas.Disk.Basic
import RepoAtlas.Json.Printer
import RepoAtlas.Json.Reader
import RepoAtlas.Snapshot.Record
import RepoAtlas.Store.Key

namespace RepoAtlas

open Disk Json Text

namespace Store

/-- What stands under a name in a directory. -/
inductive Slot where
  | file (bytes : List UInt8)
  | directory
deriving DecidableEq, Repr, Inhabited

/-- A directory of documents. -/
structure StateDirectory where
  /-- Its path, up to where the name of a document begins. -/
  path : String := ""
  /-- What stands in it by name. -/
  slots : OrderedMap String Slot := {}
  /-- Why it cannot be told whether a file has a name, such as one that is too long. -/
  obstacle? : String → Option Obstacle := fun _ => none
deriving Inhabited

/-- How many arrays and objects may stand inside each other in a document that is read.  It is what
the calls under way leave of the stack, and enough for the documents that are written. -/
structure Nesting where
  limit : Nat := Snapshot.recordDepth
  holdsRecords : Snapshot.recordDepth ≤ limit := by decide

instance : Inhabited Nesting := ⟨{}⟩

/-- Why a document does not read: an integer with too many digits, too many arrays and objects inside
each other, a number beyond the range of its field, or a name that cannot be looked up. -/
inductive ReadFlaw where
  | integerTooLong (digitCount : Nat)
  | tooDeep (innermost : Container)
  | stampOutOfRange
  | infiniteCount
  | unreachable (obstacle : Obstacle) (path : String)
deriving DecidableEq, Repr, Inhabited

/-- The sentence for a flaw. -/
def ReadFlaw.message : ReadFlaw → String
  | .integerTooLong count =>
    "Exceeds the limit (" ++ toString Number.integerDigitLimit ++
      " digits) for integer string conversion: value has " ++ toString count ++
      " digits; use sys.set_int_max_str_digits() to increase the limit"
  | .tooDeep innermost =>
    "maximum recursion depth exceeded while decoding a JSON " ++ innermost.word ++
      " from a unicode string"
  | .stampOutOfRange => "int too large to convert to float"
  | .infiniteCount => "cannot convert float infinity to integer"
  | .unreachable obstacle path => obstacle.flaw.message path

/-- Why a snapshot is not kept: an integer with too many digits, or a name under which no document
can be written. -/
inductive WriteFlaw where
  | integerTooLong
  | refused (flaw : AccessFlaw) (path : String)
deriving DecidableEq, Repr, Inhabited

/-- The sentence for a flaw. -/
def WriteFlaw.message : WriteFlaw → String
  | .integerTooLong =>
    "Exceeds the limit (" ++ toString Number.integerDigitLimit ++
      " digits) for integer string conversion; use sys.set_int_max_str_digits() to increase the limit"
  | .refused flaw path => flaw.message path

/-- The snapshot that a value records, none if it is malformed. -/
def snapshotOfValue (value : Value) : Except ReadFlaw (Option Snapshot) :=
  match Snapshot.ofValue value with
  | .ok snapshot => .ok (some snapshot)
  | .error .malformed => .ok none
  | .error .stampOutOfRange => .error .stampOutOfRange
  | .error .infiniteCount => .error .infiniteCount

/-- The snapshot in a document of characters. -/
def snapshotOfText (limit : Nat) (chars : List Char) : Except ReadFlaw (Option Snapshot) :=
  match Json.read limit chars with
  | .ok value => snapshotOfValue value
  | .error .malformed => .ok none
  | .error (.integerTooLong count) => .error (.integerTooLong count)
  | .error (.tooDeep innermost) => .error (.tooDeep innermost)

/-- The snapshot in a document of bytes. -/
def snapshotOfBytes (limit : Nat) (bytes : List UInt8) : Except ReadFlaw (Option Snapshot) :=
  match Utf8.decode bytes with
  | .ok chars => snapshotOfText limit chars
  | .error _ => .ok none

/-- The document of a snapshot. -/
def document (snapshot : Snapshot) : List Char :=
  Json.render snapshot.toValue

namespace StateDirectory

/-- The path of the document of a repository. -/
def pathFor (directory : StateDirectory) (key : String) : String :=
  directory.path ++ keyFileName key

/-- The snapshot of a repository, whose document is nested at most `limit` deep. -/
def read (directory : StateDirectory) (limit : Nat) (key : String) :
    Except ReadFlaw (Option Snapshot) :=
  match directory.obstacle? (keyFileName key) with
  | some obstacle => .error (.unreachable obstacle (directory.pathFor key))
  | none =>
    match directory.slots.get? (keyFileName key) with
    | some (.file bytes) => snapshotOfBytes limit bytes
    | _ => .ok none

/-- Puts something under the name of a repository. -/
def put (directory : StateDirectory) (key : String) (slot : Slot) : StateDirectory :=
  { directory with slots := directory.slots.insert (keyFileName key) slot }

/-- Why no document can be written for a repository. -/
def refusal? (directory : StateDirectory) (key : String) : Option AccessFlaw :=
  match directory.obstacle? (keyFileName key) with
  | some obstacle => some obstacle.flaw
  | none =>
    if directory.slots.get? (keyFileName key) = some .directory then some .isDirectory else none

/-- Keeps the snapshot of a repository. -/
def write (directory : StateDirectory) (key : String) (snapshot : Snapshot) :
    Except WriteFlaw StateDirectory :=
  if !snapshot.toValue.isWritable then .error .integerTooLong
  else
    match directory.refusal? key with
    | some flaw => .error (.refused flaw (directory.pathFor key))
    | none => .ok (directory.put key (.file (Utf8.encodeChars (document snapshot))))

end StateDirectory

/-- Snapshots in memory by repository. -/
abbrev MemoryStore := OrderedMap String Snapshot

end Store

/-- A place where snapshots are kept, and how deep the documents read there may be nested. -/
inductive Store where
  | memory (snapshots : Store.MemoryStore)
  | documents (directory : Store.StateDirectory) (nesting : Store.Nesting)
deriving Inhabited

namespace Store

/-- The snapshot of a repository. -/
def read (store : Store) (key : String) : Except ReadFlaw (Option Snapshot) :=
  match store with
  | .memory snapshots => .ok (snapshots.get? key)
  | .documents directory nesting => directory.read nesting.limit key

/-- Whether nothing stands in the way of the snapshot of a repository. -/
def isFree (store : Store) (key : String) : Bool :=
  match store with
  | .memory _ => true
  | .documents directory _ => (directory.refusal? key).isNone

/-- Keeps the snapshot of a repository. -/
def write (store : Store) (key : String) (snapshot : Snapshot) : Except WriteFlaw Store :=
  match store with
  | .memory snapshots => .ok (.memory (snapshots.insert key snapshot))
  | .documents directory nesting => (directory.write key snapshot).map (.documents · nesting)

end Store

end RepoAtlas
