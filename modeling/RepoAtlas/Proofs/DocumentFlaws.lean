/-
Module: RepoAtlas.Proofs.DocumentFlaws
Purpose: Which documents fail to read, and which read as a snapshot.
  A document fails for a name that cannot be looked up, for an integer with too many digits, for its
  depth, or, when it is a record of the current version, for the first file whose stamp or count has
  no counterpart in its field.  Every other document reads as a snapshot or as none.
Main exports: OutOfRange, FlawedRecord, Snapshot.ofValue_eq_error_iff, FlawedDocument,
  snapshotOfText_eq_error_iff, StateDirectory.Holds, read_fails_iff_flawedDocument
-/
import RepoAtlas.Proofs.DoubleRange
import RepoAtlas.Proofs.JsonErrors
import RepoAtlas.Store.Basic

namespace RepoAtlas

open Json Number Text.Utf8

section Fields

/-- A required member is there exactly if the object has one of its name. -/
theorem requiredMember_eq_ok_iff (members : List (Points × Value)) (key : String)
    (value : Value) :
    requiredMember members key = .ok value ↔ Value.member? members key = some value := by
  unfold requiredMember
  cases Value.member? members key <;> simp

theorem requiredMember_eq_malformed {members : List (Points × Value)} {key : String}
    {flaw : RecordFlaw} (failed : requiredMember members key = .error flaw) :
    flaw = .malformed := by
  unfold requiredMember at failed
  split at failed <;> cases failed
  rfl

/-- A field is no double for its size exactly when it is an integer beyond every double. -/
theorem realOfValue_eq_error_iff {flaw : RecordFlaw} (beyond : flaw ≠ .malformed)
    (value : Value) :
    realOfValue value = .error flaw ↔
      flaw = .stampOutOfRange ∧ ∃ whole, value = .integer whole ∧ infiniteFrom ≤ whole.natAbs := by
  constructor
  · intro failed
    unfold realOfValue at failed
    split at failed
    · cases failed
    · cases failed
    · next whole =>
      split at failed
      · next negative infinite =>
        cases failed
        exact ⟨rfl, whole, rfl, (ofInt_isInfinite_iff whole).1 ⟨negative, infinite⟩⟩
      · cases failed
    · split at failed <;> cases failed
      exact absurd rfl beyond
    · cases failed
      exact absurd rfl beyond
  · rintro ⟨rfl, whole, rfl, large⟩
    obtain ⟨negative, infinite⟩ := (ofInt_isInfinite_iff whole).2 large
    simp only [realOfValue, infinite]

/-- A field is no integer for its size exactly when it is an infinity. -/
theorem integerOfValue_eq_error_iff {flaw : RecordFlaw} (beyond : flaw ≠ .malformed)
    (value : Value) :
    integerOfValue value = .error flaw ↔
      flaw = .infiniteCount ∧ ∃ negative, value = .real (.infinite negative) := by
  constructor
  · intro failed
    unfold integerOfValue at failed
    split at failed
    · cases failed
    · cases failed
    · next negative =>
      cases failed
      exact ⟨rfl, negative, rfl⟩
    · split at failed <;> cases failed
      exact absurd rfl beyond
    · split at failed <;> cases failed
      exact absurd rfl beyond
    · cases failed
      exact absurd rfl beyond
  · rintro ⟨rfl, negative, rfl⟩
    rfl

end Fields

/-- Why the state of a file is out of range: its stamp is an integer beyond every double, or its stamp
can be read and its count is an infinity. -/
inductive OutOfRange (members : List (Points × Value)) : RecordFlaw → Prop where
  | stamp {hash : Value} {whole : Int} (hashed : Value.member? members "hash" = some hash)
      (stamped : Value.member? members "last_analyzed" = some (.integer whole))
      (beyond : infiniteFrom ≤ whole.natAbs) : OutOfRange members .stampOutOfRange
  | count {hash stamp : Value} {moment : Binary64} {negative : Bool}
      (hashed : Value.member? members "hash" = some hash)
      (stamped : Value.member? members "last_analyzed" = some stamp)
      (readable : realOfValue stamp = .ok moment)
      (counted : Value.member? members "symbol_count" = some (.real (.infinite negative))) :
      OutOfRange members .infiniteCount

theorem FileState.ofValue_eq_error_iff {flaw : RecordFlaw} (beyond : flaw ≠ .malformed)
    (value : Value) :
    FileState.ofValue value = .error flaw ↔
      ∃ members, value = .object members ∧ OutOfRange members flaw := by
  constructor
  · intro failed
    cases value with
    | object members =>
      refine ⟨members, rfl, ?_⟩
      simp only [FileState.ofValue, bind_eq_error_iff, requiredMember_eq_ok_iff] at failed
      rcases failed with missing | ⟨hash, hashed, missing | ⟨stamp, stamped, failed⟩⟩
      · exact absurd (requiredMember_eq_malformed missing) beyond
      · exact absurd (requiredMember_eq_malformed missing) beyond
      rcases failed with tooLarge | ⟨moment, readable, missing | ⟨count, counted, failed⟩⟩
      · obtain ⟨rfl, whole, rfl, large⟩ := (realOfValue_eq_error_iff beyond stamp).1 tooLarge
        exact .stamp hashed stamped large
      · exact absurd (requiredMember_eq_malformed missing) beyond
      rcases failed with infinite | ⟨whole, _, returned⟩
      · obtain ⟨rfl, negative, rfl⟩ := (integerOfValue_eq_error_iff beyond count).1 infinite
        exact .count hashed stamped readable counted
      · cases returned
    | _ =>
      cases failed
      exact absurd rfl beyond
  · rintro ⟨members, rfl, range⟩
    simp only [FileState.ofValue, bind_eq_error_iff, requiredMember_eq_ok_iff]
    cases range with
    | stamp hashed stamped large =>
      have tooLarge := (realOfValue_eq_error_iff beyond _).2 ⟨rfl, _, rfl, large⟩
      exact .inr ⟨_, hashed, .inr ⟨_, stamped, .inl tooLarge⟩⟩
    | count hashed stamped readable counted =>
      exact .inr ⟨_, hashed, .inr ⟨_, stamped, .inr ⟨_, readable, .inr ⟨_, counted, .inl rfl⟩⟩⟩⟩

/-- Whether a value is the record of a snapshot of the current version whose first file state that
cannot be read is out of range. -/
inductive FlawedRecord : Value → RecordFlaw → Prop where
  | intro {members entries fields : List (Points × Value)} {version : Value} {path : Points}
      {before after : List (Points × Value)} {flaw : RecordFlaw}
      (versioned : Value.member? members "version" = some version)
      (current : isCurrentVersion version = true)
      (filed : Value.member? members "files" = some (.object entries))
      (listed : (OrderedMap.ofList entries).entries = before ++ (path, .object fields) :: after)
      (earlier : ∀ entry ∈ before, ∃ state, FileState.ofValue entry.2 = .ok state)
      (first : OutOfRange fields flaw) : FlawedRecord (.object members) flaw

/-- The states of a record's files fail with the first that does. -/
theorem traverse_ofValue_eq_error_iff {flaw : RecordFlaw} (beyond : flaw ≠ .malformed)
    (files : OrderedMap Points Value) :
    files.traverse (fun _ => FileState.ofValue) = .error flaw ↔
      ∃ before path fields after, files.entries = before ++ (path, .object fields) :: after ∧
        (∀ entry ∈ before, ∃ state, FileState.ofValue entry.2 = .ok state) ∧
        OutOfRange fields flaw := by
  rw [OrderedMap.traverse_eq_error_iff, OrderedMap.traverseEntries_eq_error_iff]
  simp only [FileState.ofValue_eq_error_iff beyond]
  constructor
  · rintro ⟨before, path, value, after, listed, earlier, fields, rfl, first⟩
    exact ⟨before, path, fields, after, listed, earlier, first⟩
  · rintro ⟨before, path, fields, after, listed, earlier, first⟩
    exact ⟨before, path, _, after, listed, earlier, fields, rfl, first⟩

/-- A value is no record for the range of a number exactly when it is a flawed record. -/
theorem Snapshot.ofValue_eq_error_iff {flaw : RecordFlaw} (beyond : flaw ≠ .malformed)
    (value : Value) : Snapshot.ofValue value = .error flaw ↔ FlawedRecord value flaw := by
  constructor
  · intro failed
    unfold Snapshot.ofValue at failed
    split at failed
    · next members =>
      split at failed
      · next current =>
        split at failed
        · next entries filed =>
          obtain ⟨version, versioned, accepted⟩ : ∃ version,
              Value.member? members "version" = some version ∧ isCurrentVersion version = true := by
            cases versioned : Value.member? members "version" with
            | none => simp [versioned] at current
            | some version => exact ⟨version, rfl, by simpa [versioned] using current⟩
          obtain ⟨before, path, fields, after, listed, earlier, first⟩ :=
            (traverse_ofValue_eq_error_iff beyond _).1 ((map_eq_error_iff _ _ _).1 failed)
          exact .intro versioned accepted filed listed earlier first
        · cases failed
          exact absurd rfl beyond
      · cases failed
        exact absurd rfl beyond
    · cases failed
      exact absurd rfl beyond
  · intro flawed
    cases flawed with
    | intro versioned current filed listed earlier first =>
      have stopped := (traverse_ofValue_eq_error_iff beyond _).2
        ⟨_, _, _, _, listed, earlier, first⟩
      simp [Snapshot.ofValue, versioned, current, filed, map_eq_error_iff, stopped]

namespace Store

/-- Why a document fails to read. -/
inductive FlawedDocument (limit : Nat) (chars : List Char) : ReadFlaw → Prop where
  /-- An integer with too many digits stands where a value may, after a beginning without error. -/
  | integerTooLong {frames : List Frame} {remaining figures rest : List Char} {negative : Bool}
      (place : ValueAt limit chars frames remaining)
      (text : remaining.dropWhile isSpace = signText negative ++ (figures ++ rest))
      (long : LongDigits figures rest) : FlawedDocument limit chars (.integerTooLong figures.length)
  /-- An array or object opens below as many others as are allowed, after a beginning without
  error. -/
  | tooDeep {frames : List Frame} {remaining rest : List Char} {token : Token}
      {container : Container} (place : ValueAt limit chars frames remaining)
      (taken : nextToken remaining = some (token, rest)) (opens : Opens token container)
      (deep : limit ≤ frames.length) : FlawedDocument limit chars (.tooDeep container)
  | stampOutOfRange {value : Value} (understood : Json.read limit chars = .ok value)
      (flawed : FlawedRecord value .stampOutOfRange) : FlawedDocument limit chars .stampOutOfRange
  | infiniteCount {value : Value} (understood : Json.read limit chars = .ok value)
      (flawed : FlawedRecord value .infiniteCount) : FlawedDocument limit chars .infiniteCount

theorem snapshotOfText_eq_error_iff (limit : Nat) (chars : List Char) (flaw : ReadFlaw) :
    snapshotOfText limit chars = .error flaw ↔ FlawedDocument limit chars flaw := by
  constructor
  · intro failed
    unfold snapshotOfText at failed
    split at failed
    · next value understood =>
      unfold snapshotOfValue at failed
      split at failed
      · cases failed
      · cases failed
      · next stopped =>
        cases failed
        exact .stampOutOfRange understood ((Snapshot.ofValue_eq_error_iff (by simp) _).1 stopped)
      · next stopped =>
        cases failed
        exact .infiniteCount understood ((Snapshot.ofValue_eq_error_iff (by simp) _).1 stopped)
    · cases failed
    · next count refused =>
      cases failed
      obtain ⟨frames, remaining, negative, figures, rest, place, text, rfl, long⟩ :=
        (read_eq_integerTooLong_iff chars count).1 refused
      exact .integerTooLong place text long
    · next container refused =>
      cases failed
      obtain ⟨frames, remaining, token, rest, place, taken, deep, opens⟩ :=
        (read_eq_tooDeep_iff chars container).1 refused
      exact .tooDeep place taken opens deep
  · intro flawed
    cases flawed with
    | integerTooLong place text long =>
      have refused := (read_eq_integerTooLong_iff chars _).2
        ⟨_, _, _, _, _, place, text, rfl, long⟩
      simp only [snapshotOfText, refused]
    | tooDeep place taken opens deep =>
      have refused := (read_eq_tooDeep_iff chars _).2 ⟨_, _, _, _, place, taken, deep, opens⟩
      simp only [snapshotOfText, refused]
    | stampOutOfRange understood flawed =>
      have stopped := (Snapshot.ofValue_eq_error_iff (by simp) _).2 flawed
      simp only [snapshotOfText, understood, snapshotOfValue, stopped]
    | infiniteCount understood flawed =>
      have stopped := (Snapshot.ofValue_eq_error_iff (by simp) _).2 flawed
      simp only [snapshotOfText, understood, snapshotOfValue, stopped]

theorem snapshotOfText_eq_some_iff (limit : Nat) (chars : List Char) (snapshot : Snapshot) :
    snapshotOfText limit chars = .ok (some snapshot) ↔
      ∃ value, Json.read limit chars = .ok value ∧ Snapshot.ofValue value = .ok snapshot := by
  unfold snapshotOfText
  split
  · next value understood =>
    unfold snapshotOfValue
    split <;> simp_all
  all_goals simp_all

/-- Whether a directory has, under the file name of a key, a document of the given characters. -/
inductive StateDirectory.Holds (directory : StateDirectory) (key : String) (chars : List Char) :
    Prop where
  | intro {bytes : List UInt8} (reachable : directory.obstacle? (keyFileName key) = none)
      (found : directory.slots.get? (keyFileName key) = some (.file bytes))
      (decoded : Text.Utf8.decode bytes = .ok chars)

/-- What a directory reads under a key that can be looked up is what it reads in the document that
it holds there. -/
theorem StateDirectory.read_eq_iff_holds {directory : StateDirectory} {key : String}
    (reachable : directory.obstacle? (keyFileName key) = none) (limit : Nat)
    {result : Except ReadFlaw (Option Snapshot)} (telling : result ≠ .ok none) :
    directory.read limit key = result ↔
      ∃ chars, directory.Holds key chars ∧ snapshotOfText limit chars = result := by
  simp only [StateDirectory.read, reachable]
  constructor
  · intro given
    split at given
    · next bytes found =>
      unfold snapshotOfBytes at given
      split at given
      · next chars decoded => exact ⟨chars, .intro reachable found decoded, given⟩
      · exact absurd given.symm telling
    · exact absurd given.symm telling
  · rintro ⟨chars, ⟨_, found, decoded⟩, given⟩
    simp only [found, snapshotOfBytes, decoded, given]

/-- What a directory gives for a key, whatever stands under its file name and however deep documents
may be nested.  It fails exactly if the name cannot be looked up or its document is flawed, finds a
snapshot exactly in a document that records one, and has nothing to give otherwise. -/
theorem read_fails_iff_flawedDocument (limit : Nat) (directory : StateDirectory) (key : String) :
    (∀ flaw, directory.read limit key = .error flaw ↔
      (∃ obstacle, directory.obstacle? (keyFileName key) = some obstacle ∧
        flaw = .unreachable obstacle (directory.pathFor key)) ∨
      ∃ chars, directory.Holds key chars ∧ FlawedDocument limit chars flaw) ∧
    (∀ snapshot, directory.read limit key = .ok (some snapshot) ↔
      ∃ chars value, directory.Holds key chars ∧ Json.read limit chars = .ok value ∧
        Snapshot.ofValue value = .ok snapshot) := by
  cases looked : directory.obstacle? (keyFileName key) with
  | some obstacle =>
    have unheld : ∀ chars, ¬ directory.Holds key chars := by
      rintro chars ⟨reachable, _, _⟩
      rw [looked] at reachable
      cases reachable
    simp [StateDirectory.read, looked, unheld, eq_comm]
  | none =>
    constructor
    · intro flaw
      rw [StateDirectory.read_eq_iff_holds looked limit (by simp)]
      simp only [snapshotOfText_eq_error_iff, reduceCtorEq, false_and, exists_false, false_or]
    · intro snapshot
      rw [StateDirectory.read_eq_iff_holds looked limit (by simp)]
      simp only [snapshotOfText_eq_some_iff, exists_and_left]

/-- A count without bound is one of the numbers that make a record fail. -/
example : snapshotOfValue (.object [("version", .integer 1), ("files", .object [("a.py",
    .object [("hash", .string "x"), ("last_analyzed", .integer 0),
      ("symbol_count", .real (.infinite false))])])]) = .error .infiniteCount := by rfl

end Store

end RepoAtlas
