/-
Module: RepoAtlas.Proofs.TornDocuments
Purpose: A document of which only a part was written reads as no snapshot.
  Writing replaces a document in place, so a run that is interrupted may leave any number of its
  first bytes.  The bytes left are those of a beginning of its text, or they are no text at all.
Main exports: Text.Utf8.prefix_of_encodeChars_prefix, snapshotOfBytes_of_torn, read_torn_document
-/
import RepoAtlas.Proofs.DocumentStore
import RepoAtlas.Proofs.EscapedReading
import RepoAtlas.Proofs.JsonPrefixes

namespace RepoAtlas

namespace Text.Utf8

/-- The bytes of a character and what follows them determine the character. -/
theorem encodeChar_append_inj {first second : Char} {rest other : List UInt8}
    (same : encodeChar first ++ rest = encodeChar second ++ other) :
    first = second ∧ rest = other := by
  obtain ⟨lead, tail, bytes, read⟩ := readChar_encodeChar first rest
  obtain ⟨lead', tail', bytes', read'⟩ := readChar_encodeChar second other
  rw [bytes, bytes', List.cons_append, List.cons_append] at same
  obtain ⟨rfl, later⟩ := List.cons.inj same
  rw [later, read'] at read
  cases read
  exact ⟨rfl, rfl⟩

/-- Bytes that begin the bytes of a text and are those of a text are those of its beginning. -/
theorem prefix_of_encodeChars_prefix {chars text : List Char}
    (beginning : encodeChars chars <+: encodeChars text) : chars <+: text := by
  induction chars generalizing text with
  | nil => exact List.nil_prefix
  | cons char chars ih =>
    obtain ⟨more, whole⟩ := beginning
    rw [encodeChars, List.flatMap_cons, List.append_assoc] at whole
    cases text with
    | nil =>
      obtain ⟨lead, tail, bytes, _⟩ := readChar_encodeChar char []
      rw [bytes] at whole
      cases whole
    | cons first text =>
      obtain ⟨rfl, later⟩ := encodeChar_append_inj whole
      exact List.cons_prefix_cons.2 ⟨rfl, ih ⟨more, later⟩⟩

end Text.Utf8

namespace Store

open Json Text

/-- The first bytes of a document, not all of them, read as no snapshot. -/
theorem snapshotOfBytes_of_torn {snapshot : Snapshot} (legible : snapshot.Legible)
    (writable : snapshot.toValue.isWritable = true) {torn : List UInt8}
    (beginning : torn <+: documentBytes snapshot) (cut : torn ≠ documentBytes snapshot)
    (nesting : Nesting) : snapshotOfBytes nesting.limit torn = .ok none := by
  unfold snapshotOfBytes
  split
  · next chars decoded =>
    obtain rfl := (Utf8.decode_eq_ok_iff torn chars).1 decoded
    have shorter : chars ≠ document snapshot := by
      rintro rfl
      exact cut rfl
    have malformed := read_torn (legible.fitsWithin_toValue nesting.holdsRecords) writable trivial
      (Utf8.prefix_of_encodeChars_prefix beginning) shorter
    rw [snapshotOfText, malformed]
  · rfl

namespace StateDirectory

/-- Writing a recordable snapshot of the current version puts the same bytes into every directory
that does not refuse its document.  Where only some of the first of them arrived, the document reads
as no snapshot, whatever else stands in the directory. -/
theorem read_torn_document (nesting : Nesting) (key : String) {snapshot : Snapshot}
    (recordable : snapshot.Recordable) (current : snapshot.version = Snapshot.currentVersion) :
    ∃ bytes,
      (∀ directory : StateDirectory, directory.refusal? key = none →
        directory.write key snapshot = .ok (directory.put key (.file bytes))) ∧
      ∀ torn, torn <+: bytes → torn ≠ bytes → ∀ interrupted : StateDirectory,
        interrupted.obstacle? (keyFileName key) = none →
          interrupted.slots.get? (keyFileName key) = some (.file torn) →
            interrupted.read nesting.limit key = .ok none := by
  refine ⟨documentBytes snapshot, fun _ => write_of_recordable recordable current, ?_⟩
  intro torn beginning cut interrupted reachable found
  simp only [read, reachable, found]
  exact snapshotOfBytes_of_torn recordable.toLegible (recordable.isWritable_of_current current)
    beginning cut nesting

/-- A snapshot of one file. -/
def singleSnapshot : Snapshot where
  version := 1
  commit := "c0ffee"
  files :=
    { entries := [("src/ä.py", ⟨"00ff", .real .nan, -12⟩)]
      nodup := by decide }

/-- Its document reads as no snapshot after any number of its bytes but all. -/
theorem read_torn_document_singleSnapshot :
    ∃ bytes, StateDirectory.write {} "/home/me/repo" singleSnapshot =
        .ok (StateDirectory.put {} "/home/me/repo" (.file bytes)) ∧
      ∀ count < bytes.length,
        (StateDirectory.put {} "/home/me/repo" (.file (bytes.take count))).read
          Snapshot.recordDepth "/home/me/repo" = .ok none := by
  have recordable : singleSnapshot.Recordable :=
    { commit := isUnpaired_points _
      paths := by
        simp only [singleSnapshot, OrderedMap.keys, List.map, List.forall_mem_cons]
        exact ⟨isUnpaired_points _, List.forall_mem_nil _⟩
      states := by
        simp only [singleSnapshot, List.forall_mem_cons]
        exact ⟨⟨isUnpaired_points _, _, rfl⟩, List.forall_mem_nil _⟩
      counts := by
        simp only [singleSnapshot, List.forall_mem_cons]
        exact ⟨by decide, List.forall_mem_nil _⟩ }
  obtain ⟨bytes, written, torn⟩ := read_torn_document {} "/home/me/repo" recordable rfl
  refine ⟨bytes, written {} rfl, fun count few => ?_⟩
  apply torn (bytes.take count) (List.take_prefix count bytes)
  · intro same
    have size := congrArg List.length same
    rw [List.length_take] at size
    omega
  · rfl
  · rw [get?_put, if_pos rfl]

end StateDirectory

end Store

end RepoAtlas
