/-
Module: RepoAtlas.Snapshot.Record
Purpose: Snapshots as JSON values.
  The record has its keys and its paths in code-point order.  Reading is lenient about the types of
  the fields, as the conversions of each field say; a record that cannot be understood is malformed,
  and two numbers that have no counterpart in the field's type are reported apart.
Main exports: RecordFlaw, realOfValue, integerOfValue, Snapshot.recordDepth, Snapshot.toValue,
  Snapshot.ofValue
-/
import RepoAtlas.Json.Value
import RepoAtlas.Number.Reading
import RepoAtlas.Snapshot.Basic

namespace RepoAtlas

open Json Number Text.Utf8

/-- Why a value is not the record of a snapshot. -/
inductive RecordFlaw where
  | malformed
  /-- A stamp is an integer beyond every double. -/
  | stampOutOfRange
  /-- A count is an infinity. -/
  | infiniteCount
deriving DecidableEq, Repr, Inhabited

/-- A stamp as a JSON value. -/
def Stamp.toValue : Stamp → Value
  | .integer value => .integer value
  | .real value => .real value

/-- A value as a double: truth values are one and zero, texts are read. -/
def realOfValue : Value → Except RecordFlaw Binary64
  | .real value => .ok value
  | .boolean value => .ok (Binary64.ofInt (if value then 1 else 0))
  | .integer value =>
    match Binary64.ofInt value with
    | .infinite _ => .error .stampOutOfRange
    | nearest => .ok nearest
  | .string text =>
    match (scalars? text).bind readReal? with
    | some value => .ok value
    | none => .error .malformed
  | _ => .error .malformed

/-- A value as an integer: truth values are one and zero, doubles lose their fraction, texts are
read. -/
def integerOfValue : Value → Except RecordFlaw Int
  | .integer value => .ok value
  | .boolean value => .ok (if value then 1 else 0)
  | .real (.infinite _) => .error .infiniteCount
  | .real value =>
    match value.truncate? with
    | some whole => .ok whole
    | none => .error .malformed
  | .string text =>
    match (scalars? text).bind readInteger? with
    | some value => .ok value
    | none => .error .malformed
  | _ => .error .malformed

/-- The member of an object that must have it. -/
def requiredMember (members : List (Points × Value)) (key : String) : Except RecordFlaw Value :=
  match Value.member? members key with
  | some value => .ok value
  | none => .error .malformed

/-- The state of a file as a JSON value. -/
def FileState.toValue (state : FileState) : Value :=
  .object [
    ("hash", .string state.hash),
    ("last_analyzed", state.lastAnalyzed.toValue),
    ("symbol_count", .integer state.symbolCount)]

/-- The state of a file that a value records.  Its fields are looked at in the order hash, stamp,
count. -/
def FileState.ofValue : Value → Except RecordFlaw FileState
  | .object members => do
    let hash ← requiredMember members "hash"
    let stamp ← realOfValue (← requiredMember members "last_analyzed")
    let count ← integerOfValue (← requiredMember members "symbol_count")
    return ⟨hash.display, .real stamp, count⟩
  | _ => .error .malformed

/-- Whether a value is the version that this library writes, as an integer, a double or a truth
value. -/
def isCurrentVersion : Value → Bool
  | .integer value => value = Snapshot.currentVersion
  | .real value => value = Binary64.ofInt Snapshot.currentVersion
  | .boolean value => value
  | _ => false

namespace Snapshot

/-- The files in code-point order of their paths. -/
def sortedFiles (snapshot : Snapshot) : List (Points × FileState) :=
  snapshot.files.entries.mergeSort (fun first second => precedes first.1 second.1)

/-- How many arrays and objects stand inside each other in the record of a snapshot. -/
def recordDepth : Nat := 3

/-- A snapshot as a JSON value. -/
def toValue (snapshot : Snapshot) : Value :=
  .object [
    ("commit", .string snapshot.commit),
    ("files", .object (snapshot.sortedFiles.map (fun (path, state) => (path, state.toValue)))),
    ("version", .integer snapshot.version)]

/-- The snapshot that a value records.  A missing commit is empty. -/
def ofValue : Value → Except RecordFlaw Snapshot
  | .object members =>
    if ((Value.member? members "version").map isCurrentVersion).getD false then
      match Value.member? members "files" with
      | some (.object entries) =>
        let commit := ((Value.member? members "commit").map Value.display).getD []
        ((OrderedMap.ofList entries).traverse (fun _ value => FileState.ofValue value)).map
          (fun files => ⟨currentVersion, commit, files⟩)
      | _ => .error .malformed
    else .error .malformed
  | _ => .error .malformed

/-- Whether a snapshot is read back from its record as it was. -/
def survivesRecording (snapshot : Snapshot) : Except RecordFlaw Bool :=
  match ofValue snapshot.toValue with
  | .ok restored => .ok (restored.agrees snapshot)
  | .error .malformed => .ok false
  | .error flaw => .error flaw

end Snapshot

end RepoAtlas
