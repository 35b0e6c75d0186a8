/-
Module: RepoAtlas.Proofs.StoreAgreement
Purpose: When a directory of documents answers as a store in memory does.
  Both are followed through the same operations.  The directory keeps one document a file name, so
  the two agree exactly over keys whose file names differ and can be looked up.
Main exports: Operation, Answer, Store.perform, Store.answers, Mirrors, Mirrors.perform,
  Mirrors.answers, documents_agree_iff_injOn
-/
import RepoAtlas.Proofs.DocumentStore
import Mathlib.Data.Set.Function

namespace RepoAtlas

open Disk Json

namespace Store

/-- What can be asked of a store. -/
inductive Operation where
  | write (key : String) (snapshot : Snapshot)
  | read (key : String)

/-- The key that an operation is about. -/
def Operation.key : Operation → String
  | .write key _ | .read key => key

/-- Whether what an operation writes can be kept in a document and is of the current version. -/
def Operation.IsRecordable : Operation → Prop
  | .write _ snapshot => snapshot.Recordable ∧ snapshot.version = Snapshot.currentVersion
  | .read _ => True

/-- What a store answers. -/
inductive Answer where
  | kept
  | refused (flaw : WriteFlaw)
  | found (snapshot : Option Snapshot)
  | unreadable (flaw : ReadFlaw)

/-- Whether two answers agree: of a snapshot they give the same commit, and the same fingerprint and
count for each path. -/
inductive Answer.Agrees : Answer → Answer → Prop where
  | kept : Agrees .kept .kept
  | absent : Agrees (.found none) (.found none)
  | found {first second : Snapshot} (same : first.essence = second.essence) :
      Agrees (.found (some first)) (.found (some second))

/-- The answer to an operation, and the store after it. -/
def perform (store : Store) : Operation → Answer × Store
  | .write key snapshot =>
    match store.write key snapshot with
    | .ok after => (.kept, after)
    | .error flaw => (.refused flaw, store)
  | .read key =>
    match store.read key with
    | .ok snapshot => (.found snapshot, store)
    | .error flaw => (.unreadable flaw, store)

/-- The answers to operations in turn. -/
def answers (store : Store) : List Operation → List Answer
  | [] => []
  | operation :: rest => (store.perform operation).1 :: (store.perform operation).2.answers rest

end Store

namespace Snapshot

theorem essence_readBack {snapshot : Snapshot} (current : snapshot.version = currentVersion) :
    snapshot.readBack.essence = snapshot.essence := by
  have restores := restores_readBack current
  exact Prod.ext restores.commit (funext restores.states)

/-- A snapshot of no files. -/
def empty : Snapshot := ⟨currentVersion, [], {}⟩

theorem recordable_empty : empty.Recordable where
  commit := isUnpaired_points ""
  paths := List.forall_mem_nil _
  states := List.forall_mem_nil _
  counts := List.forall_mem_nil _

end Snapshot

namespace Store

/-- Whether a directory holds, for the given keys, the documents of the snapshots in memory and
nothing else. -/
structure Mirrors (keys : Set String) (directory : StateDirectory) (memory : MemoryStore) :
    Prop where
  reachable : ∀ key ∈ keys, directory.obstacle? (keyFileName key) = none
  documents : ∀ key ∈ keys, directory.slots.get? (keyFileName key) =
    (memory.get? key).map (fun snapshot => .file (documentBytes snapshot))
  recordable : ∀ key snapshot, memory.get? key = some snapshot →
    snapshot.Recordable ∧ snapshot.version = Snapshot.currentVersion

section Mirroring

variable {keys : Set String} {directory : StateDirectory} {memory : MemoryStore}

/-- An empty directory in which the names of the keys can be looked up mirrors an empty memory. -/
theorem mirrors_empty (path : String) {obstacle? : String → Option Obstacle}
    (reachable : ∀ key ∈ keys, obstacle? (keyFileName key) = none) :
    Mirrors keys { path := path, obstacle? := obstacle? } {} where
  reachable := reachable
  documents := by
    intro key _
    rfl
  recordable := by
    intro key snapshot found
    cases found

/-- A mirroring directory has a place for the document of each of its keys. -/
theorem Mirrors.refusal?_eq_none (mirrors : Mirrors keys directory memory) {key : String}
    (member : key ∈ keys) : directory.refusal? key = none := by
  rw [StateDirectory.refusal?_eq_none_iff, mirrors.documents key member]
  refine ⟨mirrors.reachable key member, ?_⟩
  cases memory.get? key <;> simp

/-- A write under a key whose file name is its own keeps the two stores in step. -/
theorem Mirrors.put (distinct : Set.InjOn keyFileName keys)
    (mirrors : Mirrors keys directory memory) {key : String} (member : key ∈ keys)
    {snapshot : Snapshot} (recordable : snapshot.Recordable)
    (current : snapshot.version = Snapshot.currentVersion) :
    Mirrors keys (directory.put key (.file (documentBytes snapshot)))
      (memory.insert key snapshot) where
  reachable := mirrors.reachable
  documents := by
    intro other listed
    rw [StateDirectory.get?_put, OrderedMap.get?_insert]
    by_cases same : key = other
    · subst same
      simp
    · have apart : keyFileName key ≠ keyFileName other :=
        fun equal => same (distinct member listed equal)
      rw [if_neg same, if_neg apart]
      exact mirrors.documents other listed
  recordable := by
    intro other written found
    rw [OrderedMap.get?_insert] at found
    by_cases same : key = other
    · rw [if_pos same] at found
      cases found
      exact ⟨recordable, current⟩
    · rw [if_neg same] at found
      exact mirrors.recordable other written found

/-- What a mirroring directory reads under one of its keys. -/
theorem Mirrors.read (mirrors : Mirrors keys directory memory) {key : String}
    (member : key ∈ keys) (nesting : Nesting) :
    directory.read nesting.limit key = .ok ((memory.get? key).map Snapshot.readBack) := by
  simp only [StateDirectory.read, mirrors.reachable key member, mirrors.documents key member]
  cases found : memory.get? key with
  | none => rfl
  | some snapshot =>
    obtain ⟨recordable, current⟩ := mirrors.recordable key snapshot found
    exact snapshotOfBytes_of_recordable recordable current nesting

/-- One operation: the answers agree, and the directory after it mirrors the memory after it. -/
theorem Mirrors.perform (distinct : Set.InjOn keyFileName keys)
    (mirrors : Mirrors keys directory memory) (nesting : Nesting) {operation : Operation}
    (member : operation.key ∈ keys) (recordable : operation.IsRecordable) :
    ∃ answer answer' directory' memory',
      Store.perform (.documents directory nesting) operation =
        (answer, .documents directory' nesting) ∧
      Store.perform (.memory memory) operation = (answer', .memory memory') ∧
      answer.Agrees answer' ∧ Mirrors keys directory' memory' := by
  cases operation with
  | write key snapshot =>
    obtain ⟨writable, current⟩ := recordable
    have listed : key ∈ keys := member
    have written :=
      StateDirectory.write_of_recordable writable current (mirrors.refusal?_eq_none listed)
    refine ⟨.kept, .kept, _, _, ?_, rfl, .kept, mirrors.put distinct listed writable current⟩
    simp only [Store.perform, Store.write, written, Except.map]
  | read key =>
    have listed : key ∈ keys := member
    have answered := mirrors.read listed nesting
    refine ⟨.found ((memory.get? key).map Snapshot.readBack), .found (memory.get? key),
      directory, memory, ?_, rfl, ?_, mirrors⟩
    · simp only [Store.perform, Store.read, answered]
    · cases found : memory.get? key with
      | none => exact .absent
      | some snapshot =>
        exact .found (Snapshot.essence_readBack (mirrors.recordable key snapshot found).2)

/-- A run of operations over keys with distinct file names: all answers agree. -/
theorem Mirrors.answers (distinct : Set.InjOn keyFileName keys)
    (mirrors : Mirrors keys directory memory) (nesting : Nesting) {operations : List Operation}
    (allowed : ∀ operation ∈ operations, operation.key ∈ keys ∧ operation.IsRecordable) :
    List.Forall₂ Answer.Agrees (Store.answers (.documents directory nesting) operations)
      (Store.answers (.memory memory) operations) := by
  induction operations generalizing directory memory with
  | nil => exact .nil
  | cons operation rest ih =>
    obtain ⟨member, recordable⟩ := allowed operation (by simp)
    obtain ⟨answer, answer', directory', memory', first, second, agree, next⟩ :=
      mirrors.perform distinct nesting member recordable
    rw [Store.answers, Store.answers, first, second]
    exact .cons agree (ih next (fun other later => allowed other (by simp [later])))

end Mirroring

section Collision

variable {directory : StateDirectory} {first second : String}

/-- A directory after the empty snapshot is written under a key. -/
def withEmpty (directory : StateDirectory) (key : String) : StateDirectory :=
  directory.put key (.file (documentBytes .empty))

theorem write_empty (free : directory.refusal? first = none) :
    directory.write first .empty = .ok (withEmpty directory first) :=
  StateDirectory.write_of_recordable Snapshot.recordable_empty rfl free

/-- What is written under a key is found under every other key with its file name. -/
theorem read_withEmpty (free : directory.refusal? first = none)
    (collision : keyFileName first = keyFileName second) (nesting : Nesting) :
    (withEmpty directory first).read nesting.limit second =
      .ok (some Snapshot.empty.readBack) := by
  have found := snapshotOfBytes_of_recordable Snapshot.recordable_empty rfl nesting
  rw [← found, ← StateDirectory.read_put free]
  simp only [StateDirectory.read, StateDirectory.pathFor, withEmpty, collision]

/-- Two keys with one file name tell the directory and the memory apart. -/
theorem answers_of_collision (free : directory.refusal? first = none) (different : first ≠ second)
    (collision : keyFileName first = keyFileName second) (nesting : Nesting) :
    Store.answers (.documents directory nesting) [.write first .empty, .read second] =
        [.kept, .found (some Snapshot.empty.readBack)] ∧
      Store.answers (.memory {}) [.write first .empty, .read second] = [.kept, .found none] := by
  constructor
  · simp [Store.answers, Store.perform, Store.write, Store.read, write_empty free,
      read_withEmpty free collision, Except.map]
  · have missing : (({} : MemoryStore).insert first .empty).get? second = none := by
      rw [OrderedMap.get?_insert, if_neg different]
      rfl
    simp [Store.answers, Store.perform, Store.write, Store.read, missing]

end Collision

/-- Over a set of keys an empty directory answers as an empty memory does exactly when the file names
of the keys can be looked up and no two keys have one.  In particular a write under one key leaves
what is read under another alone exactly when their file names differ.  A snapshot with a count of
too many digits is refused outright. -/
theorem documents_agree_iff_injOn (path : String) (obstacle? : String → Option Obstacle)
    (nesting : Nesting) (keys : Set String) :
    ((∀ operations : List Operation,
      (∀ operation ∈ operations, operation.key ∈ keys ∧ operation.IsRecordable) →
        List.Forall₂ Answer.Agrees
          (Store.answers (.documents { path := path, obstacle? := obstacle? } nesting) operations)
          (Store.answers (.memory {}) operations)) ↔
      (∀ key ∈ keys, obstacle? (keyFileName key) = none) ∧ Set.InjOn keyFileName keys) ∧
    (∀ first second : String,
      (∀ (directory after : StateDirectory) (snapshot : Snapshot),
        directory.write first snapshot = .ok after →
          after.read nesting.limit second = directory.read nesting.limit second) ↔
        keyFileName first ≠ keyFileName second) ∧
    (∀ (directory : StateDirectory) (key : String) (snapshot : Snapshot),
      (∃ entry ∈ snapshot.files.entries, isShortInteger entry.2.symbolCount = false) →
        directory.write key snapshot = .error .integerTooLong) := by
  refine ⟨⟨fun agree => ?_, ?_⟩, fun first second => ⟨?_, ?_⟩, ?_⟩
  · -- A read alone tells of an obstacle, a write and a read of two keys with one file name.
    have reachable : ∀ key ∈ keys, obstacle? (keyFileName key) = none := by
      intro key listed
      by_contra obstructed
      obtain ⟨obstacle, looked⟩ := Option.ne_none_iff_exists'.1 obstructed
      have answered := agree [.read key] (by simpa [Operation.key, Operation.IsRecordable])
      simp only [Store.answers, Store.perform, Store.read, StateDirectory.read, looked] at answered
      cases answered with
      | cons found _ => cases found
    refine ⟨reachable, ?_⟩
    intro first listed second listed' collision
    by_contra different
    have free : StateDirectory.refusal? { path := path, obstacle? := obstacle? } first = none :=
      (mirrors_empty path reachable).refusal?_eq_none listed
    obtain ⟨onDisk, inMemory⟩ := answers_of_collision free different collision nesting
    have allowed : ∀ operation ∈ [Operation.write first .empty, .read second],
        operation.key ∈ keys ∧ operation.IsRecordable := by
      intro operation member
      rcases List.mem_pair.1 member with rfl | rfl
      · exact ⟨listed, Snapshot.recordable_empty, rfl⟩
      · exact ⟨listed', trivial⟩
    have answered := agree _ allowed
    rw [onDisk, inMemory] at answered
    cases answered with
    | cons _ rest =>
      cases rest with
      | cons found _ => cases found
  · rintro ⟨reachable, distinct⟩ operations allowed
    exact (mirrors_empty path reachable).answers distinct nesting allowed
  · intro unchanged collision
    have same := unchanged {} _ .empty (write_empty rfl)
    rw [read_withEmpty rfl collision] at same
    cases same
  · intro apart directory after snapshot written
    obtain ⟨_, _, rfl⟩ := (StateDirectory.write_eq_ok_iff _ _ _ _).1 written
    exact StateDirectory.read_put_of_ne directory apart nesting.limit _
  · rintro directory key snapshot ⟨entry, member, long⟩
    have refused : snapshot.toValue.isWritable = false := by
      rw [← Bool.not_eq_true, Snapshot.isWritable_toValue_iff]
      rintro ⟨_, writable⟩
      have short := (FileState.isWritable_toValue_iff _).1 (writable entry member)
      rw [long] at short
      exact absurd short.2 (by decide)
    simp [StateDirectory.write, refused]

/-- Two paths that differ in a separator only have one file name. -/
example : keyFileName "/home/me/my repo" = keyFileName "/home/me/my/repo" := by decide

end Store

end RepoAtlas
