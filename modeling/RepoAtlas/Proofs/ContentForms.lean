/-
Module: RepoAtlas.Proofs.ContentForms
Purpose: A file may be given to an analysis as bytes or as the text of its escaping reading.
  An analysis asks two things of a content: its fingerprint and its characters.  Both forms give the
  same answers, so every stage and the new snapshot are the same for both.
Main exports: Content.escaped, fingerprint_escaped, source?_escaped, parse_escaped,
  parse_raw_eq_none_iff, detect_escaped, take_escaped, analyze_raw_eq_analyze_escaped
-/
import RepoAtlas.Proofs.EscapedReading
import RepoAtlas.Proofs.RunHistory

namespace RepoAtlas

open Text.Utf8

/-- The bytes of a file as the text that escaping reading makes of them. -/
def Content.escaped (bytes : List UInt8) : Content :=
  .text (decodeEscaping bytes)

/-! ### One file -/

theorem Content.fingerprint_escaped (bytes : List UInt8) :
    (Content.escaped bytes).fingerprint = (Content.raw bytes).fingerprint := by
  simp only [fingerprint, escaped, Content.bytes, encode_decodeEscaping]

theorem Content.source?_escaped (bytes : List UInt8) :
    (Content.escaped bytes).source? = (Content.raw bytes).source? :=
  scalars?_decodeEscaping bytes

theorem Source.parse_escaped (grammar : Grammar) (path : String) (bytes : List UInt8) :
    parse grammar path (.escaped bytes) = parse grammar path (.raw bytes) := by
  simp only [parse, Content.source?_escaped]

theorem Source.languageOf_eq_none_iff (path : String) :
    languageOf path = none ↔ Path.extension path ≠ ".py" := by
  simp [languageOf, languages, eq_comm]

/-- A file has no outline exactly when its name has another extension or its bytes are not UTF-8. -/
theorem Source.parse_raw_eq_none_iff (grammar : Grammar) (path : String) (bytes : List UInt8) :
    parse grammar path (.raw bytes) = none ↔
      Path.extension path ≠ ".py" ∨ ¬ bytes.toByteArray.IsValidUTF8 := by
  rw [← languageOf_eq_none_iff, isValidUTF8_iff]
  unfold parse Content.source?
  cases languageOf path with
  | none => simp
  | some language =>
    rcases decoded : decode bytes with flaw | chars
    · simp [Except.toOption, decoded]
    · simp [Except.toOption, decoded]

/-! ### All files -/

/-- The contents of files in the form of texts. -/
def escapedContents (files : OrderedMap String (List UInt8)) : OrderedMap String Content :=
  files.mapWithKey (fun _ bytes => .escaped bytes)

open Repository (rawContents areHashable_rawContents)

variable (files : OrderedMap String (List UInt8))

theorem traverse_parseFile_escaped (grammar : Source.Grammar) :
    (escapedContents files).traverse (parseFile (standardParser grammar)) =
      (rawContents files).traverse (parseFile (standardParser grammar)) := by
  apply OrderedMap.traverse_mapWithKey_congr
  intro path bytes
  simp only [parseFile, standardParser, Source.parse_escaped]

theorem Changes.detect_escaped (previous : Option Snapshot) :
    detect (underPoints (escapedContents files)) previous =
      detect (underPoints (rawContents files)) previous := by
  rw [escapedContents, rawContents, underPoints_mapWithKey, underPoints_mapWithKey]
  unfold detect
  cases previous.filter Snapshot.isCompatible with
  | none => simp only [OrderedMap.keys_mapWithKey]
  | some snapshot =>
    have statuses : ((underPoints files).mapWithKey (fun _ => .escaped)).traverse
          (statusOf snapshot.files) =
        ((underPoints files).mapWithKey (fun _ => .raw)).traverse (statusOf snapshot.files) := by
      apply OrderedMap.traverse_mapWithKey_congr
      intro path bytes
      simp only [statusOf, Content.fingerprint_escaped]
    simp only [since, statuses]

theorem Snapshot.take_escaped (outlines : OrderedMap Points (Option Outline)) (commit : Points)
    (stamp : Stamp) :
    take outlines (underPoints (escapedContents files)) commit stamp =
      take outlines (underPoints (rawContents files)) commit stamp := by
  rw [escapedContents, rawContents, underPoints_mapWithKey, underPoints_mapWithKey]
  have states : ((underPoints files).mapWithKey (fun _ => .escaped)).traverse
        (fileState outlines stamp) =
      ((underPoints files).mapWithKey (fun _ => .raw)).traverse (fileState outlines stamp) := by
    apply OrderedMap.traverse_mapWithKey_congr
    intro path bytes
    simp only [fileState, Content.fingerprint_escaped]
  simp only [take, states]

/-- An analysis of files gives one result for their bytes and for the texts that escaping reading
makes of them.  For each file the two forms have one fingerprint and one outline, and a source file
is without outline exactly when its bytes are not UTF-8. -/
theorem analyze_raw_eq_analyze_escaped (grammar : Source.Grammar) (name repositoryPath : String)
    (previous : Option Snapshot) (commit : String) (stamp : Stamp) :
    let request : Request :=
      { name, repositoryPath, previous, commit, stamp, parser := standardParser grammar }
    (∃ analysis, analyze request (rawContents files) = .ok analysis ∧
      analyze request (escapedContents files) = .ok analysis) ∧
    ∀ bytes : List UInt8,
      (Content.escaped bytes).fingerprint = (Content.raw bytes).fingerprint ∧
        ∀ path : String,
          Source.parse grammar path (.escaped bytes) = Source.parse grammar path (.raw bytes) ∧
          (Source.parse grammar path (.raw bytes) = none ↔
            Path.extension path ≠ ".py" ∨ ¬ bytes.toByteArray.IsValidUTF8) := by
  intro request
  constructor
  · have handled : ∀ entry ∈ (rawContents files).entries,
        request.parser.Handles entry.1 entry.2 :=
      fun entry _ => handles_standardParser grammar entry.1 entry.2
    obtain ⟨analysis, analysed, _⟩ :=
      analyze_of_hashable request (areHashable_rawContents files) handled
    refine ⟨analysis, analysed, ?_⟩
    rw [← analysed]
    simp only [request, analyze, traverse_parseFile_escaped, Changes.detect_escaped,
      Snapshot.take_escaped]
  · intro bytes
    refine ⟨Content.fingerprint_escaped bytes, ?_⟩
    intro path
    exact ⟨Source.parse_escaped grammar path bytes,
      Source.parse_raw_eq_none_iff grammar path bytes⟩

end RepoAtlas
