/-
Module: RepoAtlas.Proofs.AnalysisOutcome
Purpose: What an analysis gives when every content can be fingerprinted and the parser ends the run on
  no file: an outline, or none, and a remembered state for each file.
Main exports: outlineOf, traverse_parseFile, snapshotHere, take_of_hashable, hashes_snapshotHere,
  newSnapshot, analysisHere, analyze_eq_ok_iff, analyze_of_hashable, snapshot_of_analyze,
  warnings_of_analyze
-/
import RepoAtlas.Analysis.Basic
import RepoAtlas.Proofs.ChangeDetection

namespace RepoAtlas

open Text.Utf8

variable {contents : OrderedMap String Content} {parser : Parser}

section Parsing

/-- Whether a parser does not end the run on a file. -/
def Parser.Handles (parser : Parser) (path : String) (content : Content) : Prop :=
  ∀ reason, parser path content ≠ .error (.fatal reason)

/-- What a parser says of a file that it handles. -/
def resultOf (parser : Parser) (path : String) (content : Content) :
    Except String (Option Outline) :=
  match parser path content with
  | .ok outline => .ok outline
  | .error (.undecodable reason) => .error reason
  | .error (.fatal reason) => .error reason

/-- The outline that a parser gives for a file, none if it gives none or its text is flawed. -/
def outlineOf (parser : Parser) (path : String) (content : Content) : Option Outline :=
  match resultOf parser path content with
  | .ok outline => outline
  | .error _ => none

theorem parseFile_of_handles {path : String} {content : Content}
    (handles : parser.Handles path content) :
    parseFile parser path content = .ok (resultOf parser path content) := by
  unfold parseFile resultOf
  rcases parsed : parser path content with failure | outline
  · cases failure with
    | undecodable reason => rfl
    | fatal reason => exact absurd parsed (handles reason)
  · rfl

theorem traverse_parseFile
    (handles : ∀ entry ∈ contents.entries, parser.Handles entry.1 entry.2) :
    contents.traverse (parseFile parser) = .ok (contents.mapWithKey (resultOf parser)) := by
  apply OrderedMap.traverse_eq_ok
  intro entry member
  exact parseFile_of_handles (handles entry member)

theorem handles_standardParser (grammar : Source.Grammar) (path : String) (content : Content) :
    (standardParser grammar).Handles path content := by
  intro reason failed
  cases failed

/-- Files that are all parsed are all handled. -/
theorem handles_of_traverse {results : OrderedMap String (Except String (Option Outline))}
    (done : contents.traverse (parseFile parser) = .ok results) :
    ∀ entry ∈ contents.entries, parser.Handles entry.1 entry.2 := by
  intro entry member reason failed
  obtain ⟨result, parsed⟩ := OrderedMap.ok_of_traverse done entry member
  simp [parseFile, failed] at parsed

theorem parsedOutlines_results (contents : OrderedMap String Content) (parser : Parser) :
    parsedOutlines (contents.mapWithKey (resultOf parser)) =
      contents.mapWithKey (outlineOf parser) := by
  apply OrderedMap.eq_of_entries
  simp only [parsedOutlines, OrderedMap.mapWithKey, List.map_map]
  rfl

end Parsing

section Recording

variable {contents : OrderedMap Points Content}

/-- What is remembered of a content that can be fingerprinted. -/
def stateHere (files : OrderedMap Points (Option Outline)) (stamp : Stamp) (path : Points)
    (content : Content) : FileState :=
  ⟨content.hash?.getD [], stamp, Snapshot.symbolCountAt files path⟩

/-- The snapshot of contents that can be fingerprinted. -/
def snapshotHere (files : OrderedMap Points (Option Outline))
    (contents : OrderedMap Points Content) (commit : Points) (stamp : Stamp) : Snapshot :=
  ⟨Snapshot.currentVersion, commit, contents.mapWithKey (stateHere files stamp)⟩

theorem take_of_hashable (hashable : AreHashable contents)
    (files : OrderedMap Points (Option Outline)) (commit : Points) (stamp : Stamp) :
    Snapshot.take files contents commit stamp = .ok (snapshotHere files contents commit stamp) := by
  have states : contents.traverse (Snapshot.fileState files stamp) =
      .ok (contents.mapWithKey (stateHere files stamp)) := by
    apply OrderedMap.traverse_eq_ok
    intro entry member
    obtain ⟨hash, hashed⟩ := hashable entry member
    simp [Snapshot.fileState, stateHere, hashed, Content.hash?_of_fingerprint hashed, Except.map]
  rw [Snapshot.take, states]
  rfl

/-- The snapshot that an analysis of contents takes. -/
def newSnapshot (parser : Parser) (contents : OrderedMap String Content) (commit : String)
    (stamp : Stamp) : Snapshot :=
  snapshotHere (underPoints (contents.mapWithKey (outlineOf parser))) (underPoints contents) commit
    stamp

/-- Contents of which a snapshot can be taken can all be fingerprinted. -/
theorem areHashable_of_take {files : OrderedMap Points (Option Outline)} {commit : Points}
    {stamp : Stamp} {snapshot : Snapshot}
    (taken : Snapshot.take files contents commit stamp = .ok snapshot) : AreHashable contents := by
  obtain ⟨states, traversed, _⟩ := map_eq_ok_iff.1 taken
  intro entry member
  obtain ⟨state, recorded⟩ := OrderedMap.ok_of_traverse traversed entry member
  obtain ⟨hash, hashed, _⟩ := map_eq_ok_iff.1 recorded
  exact ⟨hash, hashed⟩

/-- The snapshot of contents has their fingerprints. -/
theorem hashes_snapshotHere (hashable : AreHashable contents)
    (files : OrderedMap Points (Option Outline)) (commit : Points) (stamp : Stamp) :
    (snapshotHere files contents commit stamp).hashes = hashesOf contents := by
  funext path
  rw [Snapshot.hashes, snapshotHere, OrderedMap.get?_mapWithKey, hashesOf, Option.map_map]
  cases found : contents.get? path with
  | none => rfl
  | some content =>
    have member := (contents.get?_eq_some_iff path content).1 found
    obtain ⟨hash, hashed⟩ := hashable _ member
    simp [stateHere, Content.hash?_of_fingerprint hashed]

end Recording

/-- The comparison with the last snapshot succeeds on contents that can be fingerprinted. -/
theorem Changes.detect_of_hashable {contents : OrderedMap Points Content}
    (hashable : AreHashable contents)
    (previous : Option Snapshot) : ∃ changes, Changes.detect contents previous = .ok changes := by
  unfold Changes.detect
  split
  · next snapshot _ =>
    obtain ⟨changes, compared, _⟩ := since_of_hashable hashable snapshot
    exact ⟨changes, compared⟩
  · exact ⟨_, rfl⟩

/-- The analysis of contents that differ from the last snapshot by the given changes. -/
def analysisHere (request : Request) (contents : OrderedMap String Content) (changes : Changes) :
    Analysis :=
  { Survey.ofFiles request.name request.repositoryPath
      (contents.mapWithKey (outlineOf request.parser)) with
    changes := changes
    snapshot := newSnapshot request.parser contents request.commit request.stamp
    warnings := parseWarnings (contents.mapWithKey (resultOf request.parser)) }

/-- An analysis succeeds exactly when the parser handles every file and every content can be
fingerprinted, and then it says what the outlines, the changes and the fingerprints are. -/
theorem analyze_eq_ok_iff (request : Request) (analysis : Analysis) :
    analyze request contents = .ok analysis ↔
      (∀ entry ∈ contents.entries, request.parser.Handles entry.1 entry.2) ∧
        AreHashable contents ∧ ∃ changes,
          Changes.detect (underPoints contents) request.previous = .ok changes ∧
          analysis = analysisHere request contents changes := by
  constructor
  · intro analysed
    obtain ⟨results, parsed, rest⟩ := bind_eq_ok_iff.1 analysed
    have handles := handles_of_traverse parsed
    rw [traverse_parseFile handles] at parsed
    cases parsed
    obtain ⟨changes, detected, rest⟩ := bind_eq_ok_iff.1 rest
    obtain ⟨snapshot, taken, done⟩ := bind_eq_ok_iff.1 rest
    rw [mapError_eq_ok_iff] at detected taken
    have hashable := areHashable_of_take taken
    rw [take_of_hashable hashable, parsedOutlines_results] at taken
    cases taken
    cases done
    refine ⟨handles, areHashable_underPoints.1 hashable, changes, detected, ?_⟩
    rw [analysisHere, parsedOutlines_results]
    rfl
  · intro possible
    obtain ⟨handles, hashable, changes, detected, rfl⟩ := possible
    simp only [analyze, traverse_parseFile handles, parsedOutlines_results, detected,
      take_of_hashable (areHashable_underPoints.2 hashable), Except.mapError, bind, Except.bind,
      pure, Except.pure]
    rfl

/-- An analysis of such contents succeeds, with the outlines of the parser and the snapshot of the
contents. -/
theorem analyze_of_hashable (request : Request) (hashable : AreHashable contents)
    (handles : ∀ entry ∈ contents.entries, request.parser.Handles entry.1 entry.2) :
    ∃ analysis, analyze request contents = .ok analysis ∧
      analysis.files = contents.mapWithKey (outlineOf request.parser) ∧
      analysis.snapshot = newSnapshot request.parser contents request.commit request.stamp := by
  obtain ⟨changes, detected⟩ :=
    Changes.detect_of_hashable (areHashable_underPoints.2 hashable) request.previous
  have analysed := (analyze_eq_ok_iff request _).2 ⟨handles, hashable, changes, detected, rfl⟩
  exact ⟨_, analysed, rfl, rfl⟩

theorem snapshot_of_analyze {request : Request} {analysis : Analysis}
    (analysed : analyze request contents = .ok analysis) :
    analysis.snapshot = newSnapshot request.parser contents request.commit request.stamp := by
  obtain ⟨_, _, _, _, rfl⟩ := (analyze_eq_ok_iff request analysis).1 analysed
  rfl

theorem warnings_of_analyze {request : Request} {analysis : Analysis}
    (analysed : analyze request contents = .ok analysis) :
    analysis.warnings = parseWarnings (contents.mapWithKey (resultOf request.parser)) := by
  obtain ⟨_, _, _, _, rfl⟩ := (analyze_eq_ok_iff request analysis).1 analysed
  rfl

end RepoAtlas
