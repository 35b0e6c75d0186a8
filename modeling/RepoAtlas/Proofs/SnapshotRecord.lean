/-
Module: RepoAtlas.Proofs.SnapshotRecord
Purpose: What a snapshot is after its record was printed and read again.
  Commit, paths, fingerprints and counts are kept, the files stand in code-point order of their
  paths, and only a stamp may change: it becomes the double that its digits are read as.
Main exports: Snapshot.Legible, Snapshot.Recordable, Snapshot.Restores, Snapshot.readBack,
  restores_readBack, Legible.fitsWithin_toValue, isWritable_toValue_iff, Legible.ofValue_readBack,
  ofValue_readBack_of_version
-/
import RepoAtlas.Proofs.JsonRoundTrip
import RepoAtlas.Snapshot.Record

namespace RepoAtlas

open Json Number Text.Utf8

/-- What a file state must have so that only its count can keep it out of a document: no halves of a
surrogate pair in its fingerprint, and a double as its stamp. -/
structure FileState.Legible (state : FileState) : Prop where
  hash : IsUnpaired state.hash
  stamp : ∃ moment, state.lastAnalyzed = .real moment

/-- A file state after it was printed and read: its stamp is the double that its digits give. -/
def FileState.readBack (state : FileState) : FileState :=
  match state.lastAnalyzed with
  | .real moment => { state with lastAnalyzed := .real (readBackReal moment) }
  | .integer _ => state

/-- What is kept of a file state whatever becomes of its stamp. -/
def FileState.essence (state : FileState) : Points × Int :=
  (state.hash, state.symbolCount)

theorem FileState.essence_readBack (state : FileState) :
    state.readBack.essence = state.essence := by
  unfold readBack
  split <;> rfl

/-- The value of a legible state is read, after it was printed, as that state. -/
theorem FileState.Legible.ofValue_readBack {state : FileState} (legible : state.Legible) :
    FileState.ofValue state.toValue.readBack = .ok state.readBack := by
  obtain ⟨hash, stamp, count⟩ := state
  obtain ⟨moment, rfl⟩ := legible.stamp
  rfl

/-- The value of a state can be written when its stamp and its count can. -/
theorem FileState.isWritable_toValue_iff (state : FileState) :
    state.toValue.isWritable = true ↔ state.lastAnalyzed.toValue.isWritable = true ∧
      isShortInteger state.symbolCount = true := by
  simp [FileState.toValue, Value.isWritable, areWritableMembers]

/-- Only the count can keep a legible state from being written. -/
theorem FileState.Legible.isWritable_toValue {state : FileState} (legible : state.Legible) :
    state.toValue.isWritable = isShortInteger state.symbolCount := by
  obtain ⟨moment, stamp⟩ := legible.stamp
  rw [Bool.eq_iff_iff, FileState.isWritable_toValue_iff, stamp]
  exact and_iff_right rfl

namespace Snapshot

/-- What a snapshot must have so that only its integers can keep it out of a document. -/
structure Legible (snapshot : Snapshot) : Prop where
  commit : IsUnpaired snapshot.commit
  paths : ∀ path ∈ snapshot.files.keys, IsUnpaired path
  states : ∀ entry ∈ snapshot.files.entries, entry.2.Legible

/-- What a snapshot must have to be kept in a document, its version apart: also counts with few
enough digits. -/
structure Recordable (snapshot : Snapshot) : Prop extends Legible snapshot where
  counts : ∀ entry ∈ snapshot.files.entries, isShortInteger entry.2.symbolCount = true

/-- The commit, and for each path the fingerprint and the count. -/
def essence (snapshot : Snapshot) : Points × (Points → Option (Points × Int)) :=
  (snapshot.commit, fun path => (snapshot.files.get? path).map FileState.essence)

/-- Whether a snapshot is what a document is expected to give back of another: the current version,
the same commit and paths, the same fingerprint and count for each, and the paths in code-point
order. -/
structure Restores (original restored : Snapshot) : Prop where
  version : restored.version = currentVersion
  commit : restored.commit = original.commit
  paths : restored.files.keys.Perm original.files.keys
  states : ∀ path, (restored.files.get? path).map FileState.essence =
    (original.files.get? path).map FileState.essence
  sorted : restored.files.keys.Pairwise (fun first second => precedes first second)

section Order

theorem sortedFiles_perm (snapshot : Snapshot) :
    snapshot.sortedFiles.Perm snapshot.files.entries :=
  List.mergeSort_perm _ _

theorem nodup_sortedFiles (snapshot : Snapshot) :
    (snapshot.sortedFiles.map Prod.fst).Nodup :=
  (snapshot.sortedFiles_perm.map Prod.fst).nodup_iff.2 snapshot.files.nodup

theorem precedes_trans : ∀ {first second third : Points}, precedes first second = true →
    precedes second third = true → precedes first third = true
  | [], _, _, _, _ => rfl
  | _ :: _, [], _, before, _ => nomatch before
  | _ :: _, _ :: _, [], _, after => nomatch after
  | first :: rest, second :: others, third :: further, before, after => by
    simp only [precedes, Bool.or_eq_true, Bool.and_eq_true, decide_eq_true_eq] at before after ⊢
    rcases before with less | ⟨same, before⟩
    · exact .inl (by omega)
    · rcases after with less | ⟨same', after⟩
      · exact .inl (by omega)
      · exact .inr ⟨same.trans same', precedes_trans before after⟩

theorem precedes_total : ∀ first second : Points,
    (precedes first second || precedes second first) = true
  | [], _ => by simp [precedes]
  | _ :: _, [] => by simp [precedes]
  | first :: rest, second :: others => by
    have later := precedes_total rest others
    simp only [precedes, Bool.or_eq_true, Bool.and_eq_true, decide_eq_true_eq] at later ⊢
    rcases lt_trichotomy first.code second.code with less | same | greater
    · exact .inl (.inl less)
    · exact later.imp (fun before => .inr ⟨same, before⟩) (fun before => .inr ⟨same.symm, before⟩)
    · exact .inr (.inl greater)

/-- The paths of the sorted files stand in code-point order. -/
theorem pairwise_sortedFiles (snapshot : Snapshot) :
    (snapshot.sortedFiles.map Prod.fst).Pairwise (fun first second => precedes first second) := by
  let le (first second : Points × FileState) : Bool := precedes first.1 second.1
  have transitive : ∀ first second third, le first second → le second third → le first third :=
    fun _ _ _ => precedes_trans
  have total : ∀ first second, (le first second || le second first) = true :=
    fun first second => precedes_total first.1 second.1
  exact List.pairwise_map.2 (List.pairwise_mergeSort transitive total snapshot.files.entries)

/-- The files as a map whose paths stand in code-point order. -/
def sortedMap (snapshot : Snapshot) : OrderedMap Points FileState :=
  ⟨snapshot.sortedFiles, snapshot.nodup_sortedFiles⟩

theorem get?_sortedMap (snapshot : Snapshot) (path : Points) :
    snapshot.sortedMap.get? path = snapshot.files.get? path :=
  OrderedMap.get?_eq_of_perm snapshot.sortedFiles_perm path

end Order

/-- A snapshot after its record was printed and read. -/
def readBack (snapshot : Snapshot) : Snapshot :=
  { snapshot with files := snapshot.sortedMap.mapWithKey (fun _ => FileState.readBack) }

/-- A snapshot of the current version is restored by what is read back of it. -/
theorem restores_readBack {snapshot : Snapshot} (current : snapshot.version = currentVersion) :
    snapshot.Restores snapshot.readBack where
  version := current
  commit := rfl
  paths := by
    rw [readBack, OrderedMap.keys_mapWithKey]
    exact snapshot.sortedFiles_perm.map Prod.fst
  states := by
    intro path
    rw [readBack, OrderedMap.get?_mapWithKey, get?_sortedMap, Option.map_map]
    congr 1
    funext state
    exact state.essence_readBack
  sorted := by
    rw [readBack, OrderedMap.keys_mapWithKey]
    exact snapshot.pairwise_sortedFiles

section Record

/-- The files of a record, in the order in which it lists them. -/
def fileMembers (snapshot : Snapshot) : List (Points × Value) :=
  snapshot.sortedFiles.map (fun entry => (entry.1, entry.2.toValue))

theorem toValue_eq (snapshot : Snapshot) :
    snapshot.toValue = .object [("commit", .string snapshot.commit),
      ("files", .object snapshot.fileMembers), ("version", .integer snapshot.version)] :=
  rfl

/-- The record of a legible snapshot is three deep, its keys are distinct, and no text holds the
halves of a surrogate pair. -/
theorem Legible.fitsWithin_toValue {snapshot : Snapshot} (legible : snapshot.Legible) {limit : Nat}
    (deep : recordDepth ≤ limit) : snapshot.toValue.FitsWithin limit := by
  have room : 3 ≤ limit := deep
  have distinct : (snapshot.fileMembers.map Prod.fst).Nodup := by
    rw [fileMembers, List.map_map]
    exact snapshot.nodup_sortedFiles
  have states : MembersFitWithin (limit - 1 - 1) snapshot.fileMembers := by
    rw [membersFitWithin_iff]
    intro member listed
    obtain ⟨⟨path, state⟩, sorted, rfl⟩ := List.mem_map.1 listed
    have entry := snapshot.sortedFiles_perm.mem_iff.1 sorted
    have unpaired := (legible.states _ entry).hash
    refine ⟨legible.paths path (List.mem_map_of_mem entry), ?_⟩
    cases stamp : state.lastAnalyzed <;>
      simp +decide [FileState.toValue, stamp, Stamp.toValue, Value.FitsWithin, MembersFitWithin,
        isUnpaired_points, unpaired]
    all_goals omega
  simp only [toValue_eq, Value.FitsWithin, MembersFitWithin, isUnpaired_points, true_and]
  exact ⟨by omega, by simp, legible.commit, ⟨by omega, distinct, states⟩, trivial⟩

/-- A record can be written when its version and all its file states can. -/
theorem isWritable_toValue_iff (snapshot : Snapshot) :
    snapshot.toValue.isWritable = true ↔ isShortInteger snapshot.version = true ∧
      ∀ entry ∈ snapshot.files.entries, entry.2.toValue.isWritable = true := by
  have states : areWritableMembers snapshot.fileMembers = true ↔
      ∀ entry ∈ snapshot.files.entries, entry.2.toValue.isWritable = true := by
    rw [areWritableMembers_iff, fileMembers, List.forall_mem_map]
    simp only [snapshot.sortedFiles_perm.mem_iff]
  simp [toValue_eq, Value.isWritable, areWritableMembers, states, and_comm]

/-- A recordable snapshot can be written as soon as its version can. -/
theorem Recordable.isWritable_toValue {snapshot : Snapshot} (recordable : snapshot.Recordable) :
    snapshot.toValue.isWritable = isShortInteger snapshot.version := by
  rw [Bool.eq_iff_iff, isWritable_toValue_iff, and_iff_left_iff_imp]
  intro _ entry member
  rw [(recordable.states entry member).isWritable_toValue]
  exact recordable.counts entry member

theorem Recordable.isWritable_of_current {snapshot : Snapshot} (recordable : snapshot.Recordable)
    (current : snapshot.version = currentVersion) : snapshot.toValue.isWritable = true := by
  rw [recordable.isWritable_toValue, current]
  decide

/-- A legible snapshot whose record can be written is recordable. -/
theorem Legible.recordable {snapshot : Snapshot} (legible : snapshot.Legible)
    (writable : snapshot.toValue.isWritable = true) : snapshot.Recordable where
  toLegible := legible
  counts := by
    intro entry member
    have states := ((isWritable_toValue_iff snapshot).1 writable).2
    rw [← (legible.states entry member).isWritable_toValue]
    exact states entry member

/-- The record of a snapshot after it was printed and read. -/
theorem readBack_toValue (snapshot : Snapshot) :
    snapshot.toValue.readBack = .object [("commit", .string snapshot.commit),
      ("files", .object (snapshot.sortedFiles.map
        (fun entry => (entry.1, entry.2.toValue.readBack)))),
      ("version", .integer snapshot.version)] := by
  simp [toValue_eq, Value.readBack, readBackMembers, readBackMembers_eq_map, fileMembers]

/-- The record of a legible snapshot of the current version is read, after it was printed, as that
snapshot. -/
theorem Legible.ofValue_readBack {snapshot : Snapshot} (legible : snapshot.Legible)
    (current : snapshot.version = currentVersion) :
    ofValue snapshot.toValue.readBack = .ok snapshot.readBack := by
  have ordered : OrderedMap.ofList (snapshot.sortedFiles.map
      (fun entry => (entry.1, entry.2.toValue.readBack))) =
        snapshot.sortedMap.mapWithKey (fun _ state => state.toValue.readBack) :=
    snapshot.sortedMap.ofList_map (fun _ state => state.toValue.readBack)
  have files : (snapshot.sortedMap.mapWithKey (fun _ state => state.toValue.readBack)).traverse
      (fun _ => FileState.ofValue) = .ok (snapshot.sortedMap.mapWithKey
        (fun _ => FileState.readBack)) := by
    apply OrderedMap.traverse_mapWithKey_eq_ok
    intro entry sorted
    exact (legible.states entry (snapshot.sortedFiles_perm.mem_iff.1 sorted)).ofValue_readBack
  have same : snapshot.readBack =
      ⟨currentVersion, snapshot.commit,
        snapshot.sortedMap.mapWithKey (fun _ => FileState.readBack)⟩ := by
    rw [← current]
    rfl
  rw [readBack_toValue, same]
  simp [ofValue, Value.member?, isCurrentVersion, current, ordered, files, Except.map,
    Value.display]

/-- The record of a snapshot of another version is not read. -/
theorem ofValue_readBack_of_version {snapshot : Snapshot}
    (outdated : snapshot.version ≠ currentVersion) :
    ofValue snapshot.toValue.readBack = .error .malformed := by
  rw [readBack_toValue]
  simp [ofValue, Value.member?, isCurrentVersion, outdated]

end Record

end Snapshot

end RepoAtlas
