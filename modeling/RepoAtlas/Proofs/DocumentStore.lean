/-
Module: RepoAtlas.Proofs.DocumentStore
Purpose: What a directory of documents gives back of the snapshots that were put into it.
  Printing, encoding, decoding and reading are composed here into one law: the document of a
  snapshot of the current version is read as that snapshot, and one of another version as none.
Main exports: documentBytes, snapshotOfBytes_of_recordable, snapshotOfBytes_of_outdated,
  refusal?_eq_none_iff, read_put, write_eq_ok_iff, restored_of_write
-/
import RepoAtlas.Proofs.SnapshotRecord
import RepoAtlas.Proofs.Utf8RoundTrip
import RepoAtlas.Store.Basic

namespace RepoAtlas.Store

open Json Text Text.Utf8

/-- The bytes of the document of a snapshot. -/
def documentBytes (snapshot : Snapshot) : List UInt8 :=
  Utf8.encodeChars (document snapshot)

/-- The bytes of a document are read as the value that was printed. -/
theorem snapshotOfBytes_documentBytes {snapshot : Snapshot} (legible : snapshot.Legible)
    (writable : snapshot.toValue.isWritable = true) (nesting : Nesting) :
    snapshotOfBytes nesting.limit (documentBytes snapshot) =
      snapshotOfValue snapshot.toValue.readBack := by
  have printed := read_render (legible.fitsWithin_toValue nesting.holdsRecords) writable
  rw [snapshotOfBytes, documentBytes, Utf8.decode_encodeChars]
  simp only [snapshotOfText, document, printed]

/-- The document of a recordable snapshot of the current version is read as that snapshot. -/
theorem snapshotOfBytes_of_recordable {snapshot : Snapshot} (recordable : snapshot.Recordable)
    (current : snapshot.version = Snapshot.currentVersion) (nesting : Nesting) :
    snapshotOfBytes nesting.limit (documentBytes snapshot) = .ok (some snapshot.readBack) := by
  rw [snapshotOfBytes_documentBytes recordable.toLegible (recordable.isWritable_of_current current),
    snapshotOfValue, recordable.ofValue_readBack current]

/-- The document of a snapshot of another version is read as none. -/
theorem snapshotOfBytes_of_outdated {snapshot : Snapshot} (legible : snapshot.Legible)
    (writable : snapshot.toValue.isWritable = true)
    (outdated : snapshot.version ≠ Snapshot.currentVersion) (nesting : Nesting) :
    snapshotOfBytes nesting.limit (documentBytes snapshot) = .ok none := by
  rw [snapshotOfBytes_documentBytes legible writable, snapshotOfValue,
    Snapshot.ofValue_readBack_of_version outdated]

namespace StateDirectory

@[simp] theorem get?_put (directory : StateDirectory) (key name : String) (slot : Slot) :
    (directory.put key slot).slots.get? name =
      if keyFileName key = name then some slot else directory.slots.get? name :=
  OrderedMap.get?_insert _ _ _ _

@[simp] theorem obstacle?_put (directory : StateDirectory) (key : String) (slot : Slot) :
    (directory.put key slot).obstacle? = directory.obstacle? :=
  rfl

@[simp] theorem pathFor_put (directory : StateDirectory) (key other : String) (slot : Slot) :
    (directory.put key slot).pathFor other = directory.pathFor other :=
  rfl

/-- What stands in the way of a document: its name cannot be looked up, or a directory has it. -/
theorem refusal?_eq_none_iff (directory : StateDirectory) (key : String) :
    directory.refusal? key = none ↔ directory.obstacle? (keyFileName key) = none ∧
      directory.slots.get? (keyFileName key) ≠ some .directory := by
  unfold refusal?
  cases directory.obstacle? (keyFileName key) <;> simp

/-- Where nothing refuses a document, nothing does after one was put there. -/
theorem refusal?_put {directory : StateDirectory} {key : String} (slot : Slot)
    (document : slot ≠ .directory) (free : directory.refusal? key = none) :
    (directory.put key slot).refusal? key = none := by
  have reachable := ((refusal?_eq_none_iff directory key).1 free).1
  rw [refusal?_eq_none_iff]
  simp [reachable, document]

/-- A document that was put into a place that nothing refuses is read again. -/
theorem read_put {directory : StateDirectory} {key : String}
    (free : directory.refusal? key = none) (limit : Nat) (bytes : List UInt8) :
    (directory.put key (.file bytes)).read limit key = snapshotOfBytes limit bytes := by
  have reachable := ((refusal?_eq_none_iff directory key).1 free).1
  simp [read, reachable]

/-- What is put under the name of one key does not show under another name. -/
theorem read_put_of_ne (directory : StateDirectory) {key other : String}
    (apart : keyFileName key ≠ keyFileName other) (limit : Nat) (slot : Slot) :
    (directory.put key slot).read limit other = directory.read limit other := by
  simp [read, apart]

/-- A snapshot is kept exactly when its record can be written and nothing refuses its document, and
then its document is put under the name of its key. -/
theorem write_eq_ok_iff (directory after : StateDirectory) (key : String) (snapshot : Snapshot) :
    directory.write key snapshot = .ok after ↔
      snapshot.toValue.isWritable = true ∧ directory.refusal? key = none ∧
        after = directory.put key (.file (documentBytes snapshot)) := by
  unfold write documentBytes
  cases snapshot.toValue.isWritable with
  | false => simp
  | true => cases directory.refusal? key <;> simp [eq_comm]

theorem write_of_recordable {snapshot : Snapshot} (recordable : snapshot.Recordable)
    (current : snapshot.version = Snapshot.currentVersion) {directory : StateDirectory}
    {key : String} (free : directory.refusal? key = none) :
    directory.write key snapshot = .ok (directory.put key (.file (documentBytes snapshot))) := by
  rw [write_eq_ok_iff]
  exact ⟨recordable.isWritable_of_current current, free, rfl⟩

/-- Reading directly after writing.  Writing fails only if something refuses the document, such as a
directory in its place, or on a version with too many digits; after it, a snapshot of the current
version is restored and one of any other version is not found. -/
theorem restored_of_write (directory : StateDirectory) (nesting : Nesting) (key : String)
    {snapshot : Snapshot} (recordable : snapshot.Recordable) :
    ((∃ after, directory.write key snapshot = .ok after) ↔
        directory.refusal? key = none ∧ isShortInteger snapshot.version = true) ∧
      ∀ after, directory.write key snapshot = .ok after →
        (snapshot.version = Snapshot.currentVersion →
          ∃ restored, after.read nesting.limit key = .ok (some restored) ∧
            snapshot.Restores restored) ∧
        (snapshot.version ≠ Snapshot.currentVersion →
          after.read nesting.limit key = .ok none) := by
  constructor
  · simp only [write_eq_ok_iff, recordable.isWritable_toValue]
    constructor
    · rintro ⟨after, short, free, _⟩
      exact ⟨free, short⟩
    · rintro ⟨free, short⟩
      exact ⟨_, short, free, rfl⟩
  · intro after written
    obtain ⟨writable, free, rfl⟩ := (write_eq_ok_iff _ _ _ _).1 written
    rw [read_put free]
    constructor
    · intro current
      exact ⟨snapshot.readBack, snapshotOfBytes_of_recordable recordable current nesting,
        Snapshot.restores_readBack current⟩
    · intro outdated
      exact snapshotOfBytes_of_outdated recordable.toLegible writable outdated nesting

/-- A snapshot with texts that must be escaped, a lone surrogate among them, and stamps that are no
finite numbers. -/
def unusualSnapshot : Snapshot where
  version := 1
  commit := "say \"\\\" \x01 \u2028"
  files :=
    { entries := [("src/😀.py", ⟨"00ff", .real .nan, 3⟩),
        ([.surrogate ⟨0x4FF, by decide⟩, .scalar '\t'], ⟨"", .real (.infinite true), -12⟩)]
      nodup := by decide }

theorem restored_of_write_unusualSnapshot :
    unusualSnapshot.Recordable ∧
      ∃ after restored, StateDirectory.write {} "/home/me/repo" unusualSnapshot = .ok after ∧
        after.read Snapshot.recordDepth "/home/me/repo" = .ok (some restored) ∧
        unusualSnapshot.Restores restored := by
  have lone : IsUnpaired [.surrogate ⟨0x4FF, by decide⟩, .scalar '\t'] := by
    simp [IsUnpaired, IsPair, CodePoint.code, isHighSurrogate]
  have recordable : unusualSnapshot.Recordable :=
    { commit := isUnpaired_points _
      paths := by
        simp only [unusualSnapshot, OrderedMap.keys, List.map, List.forall_mem_cons]
        exact ⟨isUnpaired_points _, lone, List.forall_mem_nil _⟩
      states := by
        simp only [unusualSnapshot, List.forall_mem_cons]
        exact ⟨⟨isUnpaired_points _, _, rfl⟩, ⟨isUnpaired_points _, _, rfl⟩, List.forall_mem_nil _⟩
      counts := by
        simp only [unusualSnapshot, List.forall_mem_cons]
        exact ⟨by decide, by decide, List.forall_mem_nil _⟩ }
  obtain ⟨possible, restores⟩ := restored_of_write {} {} "/home/me/repo" recordable
  obtain ⟨after, written⟩ := possible.2 ⟨rfl, by decide⟩
  obtain ⟨restored, found, same⟩ := (restores after written).1 rfl
  exact ⟨recordable, after, restored, written, found, same⟩

end StateDirectory

end RepoAtlas.Store
