/-
Module: RepoAtlas.Proofs.RepeatedRuns
Purpose: What a run over files on disk reports, and that a second run over them reports the same.
  A run fails because the store does not read, or finds its files up to date, or analyses them and
  hands its snapshot to the store.  Neither the time nor the commit has a part in this, except in
  the snapshot that is kept.
Main exports: hasSource, hasOnlyManifests, IsAnalysisOf, UpdateEnds, updateEnds_rawContents, Alike,
  alike_run, Analyses, analyses_of_run
-/
import RepoAtlas.Proofs.RunHistory

namespace RepoAtlas.Repository

open Store Json

/-! ### What an analysis says of its files -/

/-- Whether some file can be parsed. -/
def hasSource (grammar : Source.Grammar) (files : OrderedMap String (List UInt8)) : Bool :=
  files.entries.any (fun entry => (Source.parse grammar entry.1 (.raw entry.2)).isSome)

/-- Whether every file is a manifest. -/
def hasOnlyManifests (files : OrderedMap String (List UInt8)) : Bool :=
  files.keys.all (isManifest ·)

/-- Whether an analysis is one of the given files, recorded with a commit at some time. -/
structure IsAnalysisOf (grammar : Source.Grammar) (files : OrderedMap String (List UInt8))
    (commit : String) (analysis : Analysis) : Prop where
  outlines :
    analysis.files = (rawContents files).mapWithKey (outlineOf (standardParser grammar))
  warnings : analysis.warnings = []
  snapshot : ∃ moment, analysis.snapshot =
    newSnapshot (standardParser grammar) (rawContents files) commit (.real moment)

variable {grammar : Source.Grammar} {files : OrderedMap String (List UInt8)} {commit : String}
  {analysis : Analysis}

theorem IsAnalysisOf.hasParsed (analysed : IsAnalysisOf grammar files commit analysis) :
    analysis.hasParsed = hasSource grammar files := by
  rw [Analysis.hasParsed, analysed.outlines, hasSource]
  simp only [OrderedMap.values, rawContents, OrderedMap.mapWithKey, List.map_map, List.any_map]
  rfl

theorem IsAnalysisOf.hasOnlyManifests (analysed : IsAnalysisOf grammar files commit analysis) :
    analysis.files.keys.all (isManifest ·) = hasOnlyManifests files := by
  rw [analysed.outlines, Repository.hasOnlyManifests]
  simp only [OrderedMap.keys, rawContents, OrderedMap.mapWithKey, List.map_map]
  rfl

theorem IsAnalysisOf.legible (analysed : IsAnalysisOf grammar files commit analysis) :
    analysis.snapshot.Legible := by
  obtain ⟨moment, snapshot⟩ := analysed.snapshot
  rw [snapshot]
  exact legible_newSnapshot _ _ _ _

theorem IsAnalysisOf.current (analysed : IsAnalysisOf grammar files commit analysis) :
    analysis.snapshot.version = Snapshot.currentVersion := by
  obtain ⟨moment, snapshot⟩ := analysed.snapshot
  rw [snapshot]
  rfl

theorem IsAnalysisOf.hashes (analysed : IsAnalysisOf grammar files commit analysis) :
    analysis.snapshot.hashes = fileHashes files := by
  obtain ⟨moment, snapshot⟩ := analysed.snapshot
  rw [snapshot, newSnapshot,
    hashes_snapshotHere (areHashable_underPoints.2 (areHashable_rawContents files)),
    hashesOf_rawContents]

/-- The parser of this library gives an analysis of every collection of files, without warnings. -/
theorem exists_isAnalysisOf (request : Request)
    (standard : request.parser = standardParser grammar)
    (stamped : ∃ moment, request.stamp = .real moment)
    (files : OrderedMap String (List UInt8)) :
    ∃ analysis, analyze request (rawContents files) = .ok analysis ∧
      IsAnalysisOf grammar files request.commit analysis := by
  have handles : ∀ entry ∈ (rawContents files).entries,
      request.parser.Handles entry.1 entry.2 := by
    rw [standard]
    exact fun entry _ => handles_standardParser grammar entry.1 entry.2
  obtain ⟨analysis, analysed, outlines, snapshot⟩ :=
    analyze_of_hashable request (areHashable_rawContents files) handles
  obtain ⟨moment, stamp⟩ := stamped
  rw [standard] at outlines
  rw [standard, stamp] at snapshot
  refine ⟨analysis, analysed, outlines, ?_, moment, snapshot⟩
  rw [warnings_of_analyze analysed, standard, parseWarnings, List.filterMap_eq_nil_iff]
  intro entry member
  obtain ⟨source, -, rfl⟩ := List.mem_map.1 member
  rfl

/-! ### How a run over files ends -/

/-- How a run over files ends, given what the store holds for them. -/
inductive UpdateEnds (grammar : Source.Grammar) (key commit : String)
    (files : OrderedMap String (List UInt8)) (store : Option Store) :
    Except RunFailure Run → Prop where
  /-- The store does not read. -/
  | unreadable {failure : RunFailure} (held : previousSnapshot store key = .error failure) :
      UpdateEnds grammar key commit files store (.error failure)
  | upToDate {previous : Option Snapshot} (held : previousSnapshot store key = .ok previous)
      (same : isUpToDate (rawContents files) previous = .ok true) :
      UpdateEnds grammar key commit files store (.ok ⟨none, store⟩)
  /-- The files are analysed, and the store is given the snapshot. -/
  | analysed {previous : Option Snapshot} {analysis : Analysis}
      (held : previousSnapshot store key = .ok previous)
      (stale : isUpToDate (rawContents files) previous = .ok false)
      (analysed : IsAnalysisOf grammar files commit analysis) :
      UpdateEnds grammar key commit files store
        ((storeAfter store key analysis).map (fun kept => ⟨some analysis, kept⟩))

theorem isUpToDate_rawContents (files : OrderedMap String (List UInt8))
    (previous : Option Snapshot) :
    ∃ verdict, isUpToDate (rawContents files) previous = .ok verdict := by
  cases previous with
  | none => exact ⟨false, rfl⟩
  | some snapshot =>
    obtain ⟨changes, detected⟩ :=
      Changes.detect_of_hashable (areHashable_underPoints.2 (areHashable_rawContents files))
        (some snapshot)
    exact ⟨!changes.hasChanges, by simp only [isUpToDate, detected]⟩

theorem updateEnds_rawContents (job : Job) (standard : job.parser = standardParser grammar)
    (stamped : ∃ moment, job.stamp = .real moment) (files : OrderedMap String (List UInt8))
    (store : Option Store) :
    UpdateEnds grammar job.key job.commit files store (update job (rawContents files) store) := by
  rcases held : previousSnapshot store job.key with failure | previous
  · have ended : update job (rawContents files) store = .error failure := by
      simp only [update, held, bind, Except.bind]
    rw [ended]
    exact .unreadable held
  · obtain ⟨verdict, compared⟩ := isUpToDate_rawContents files previous
    obtain ⟨analysis, analysed, facts⟩ :=
      exists_isAnalysisOf (job.request previous) standard stamped files
    unfold Job.request at analysed
    cases verdict with
    | true =>
      have ended : update job (rawContents files) store = .ok ⟨none, store⟩ := by
        simp only [update, held, compared, bind, Except.bind, pure, Except.pure, if_true]
      rw [ended]
      exact .upToDate held compared
    | false =>
      have ended : update job (rawContents files) store =
          (storeAfter store job.key analysis).map (fun kept => ⟨some analysis, kept⟩) := by
        simp only [update, held, compared, analysed, Except.mapError, bind, Except.bind, pure,
          Except.pure, Bool.false_eq_true, if_false]
        rfl
      rw [ended]
      exact .analysed held compared facts

/-! ### The same run at another time -/

/-- Whether two runs end in the same way, the snapshots they keep apart. -/
inductive Alike : Except RunFailure Run → Except RunFailure Run → Prop where
  | failed (failure : RunFailure) : Alike (.error failure) (.error failure)
  | upToDate (kept kept' : Option Store) : Alike (.ok ⟨none, kept⟩) (.ok ⟨none, kept'⟩)
  | analysed {analysis analysis' : Analysis} (files : analysis'.files = analysis.files)
      (warnings : analysis'.warnings = analysis.warnings) (kept kept' : Option Store) :
      Alike (.ok ⟨some analysis, kept⟩) (.ok ⟨some analysis', kept'⟩)

/-- Whether a snapshot can be written does not depend on its time and commit. -/
theorem isWritable_newSnapshot (parser : Parser) (contents : OrderedMap String Content)
    (commit commit' : String) (moment moment' : Number.Binary64) :
    (newSnapshot parser contents commit (.real moment)).toValue.isWritable =
      (newSnapshot parser contents commit' (.real moment')).toValue.isWritable := by
  rw [Bool.eq_iff_iff, Snapshot.isWritable_toValue_iff, Snapshot.isWritable_toValue_iff]
  simp only [newSnapshot, snapshotHere, OrderedMap.mapWithKey, List.forall_mem_map, stateHere,
    FileState.isWritable_toValue_iff]
  rfl

variable {key commit' : String} {store : Option Store} {analysis' : Analysis}

theorem storeAfter_alike (first : IsAnalysisOf grammar files commit analysis)
    (second : IsAnalysisOf grammar files commit' analysis') :
    Alike ((storeAfter store key analysis).map (fun kept => ⟨some analysis, kept⟩))
      ((storeAfter store key analysis').map (fun kept => ⟨some analysis', kept⟩)) := by
  have outlines : analysis'.files = analysis.files := second.outlines.trans first.outlines.symm
  have warnings : analysis'.warnings = analysis.warnings :=
    second.warnings.trans first.warnings.symm
  have parsed : analysis'.hasParsed = analysis.hasParsed :=
    second.hasParsed.trans first.hasParsed.symm
  have writable : analysis'.snapshot.toValue.isWritable = analysis.snapshot.toValue.isWritable := by
    obtain ⟨moment, snapshot⟩ := first.snapshot
    obtain ⟨moment', snapshot'⟩ := second.snapshot
    rw [snapshot, snapshot']
    exact isWritable_newSnapshot _ _ _ _ _ _
  unfold storeAfter
  rw [parsed]
  cases store with
  | none => exact .analysed outlines warnings _ _
  | some store =>
    cases analysis.hasParsed with
    | false => exact .analysed outlines warnings _ _
    | true =>
      cases store with
      | memory snapshots => exact .analysed outlines warnings _ _
      | documents directory nesting =>
        simp only [Store.write, StateDirectory.write, writable, if_true]
        split
        · exact .failed _
        · split
          · exact .failed _
          · exact .analysed outlines warnings _ _

theorem UpdateEnds.alike {result result' : Except RunFailure Run}
    (first : UpdateEnds grammar key commit files store result)
    (second : UpdateEnds grammar key commit' files store result') : Alike result result' := by
  cases first with
  | unreadable held =>
    cases second with
    | unreadable held' =>
      cases held.symm.trans held'
      exact .failed _
    | upToDate held' => cases held.symm.trans held'
    | analysed held' => cases held.symm.trans held'
  | upToDate held same =>
    cases second with
    | unreadable held' => cases held.symm.trans held'
    | upToDate held' => exact .upToDate _ _
    | analysed held' stale =>
      cases held.symm.trans held'
      cases same.symm.trans stale
  | analysed held stale analysed =>
    cases second with
    | unreadable held' => cases held.symm.trans held'
    | upToDate held' same =>
      cases held.symm.trans held'
      cases same.symm.trans stale
    | analysed held' stale' analysed' => exact storeAfter_alike analysed analysed'

theorem Alike.warned {result result' : Except RunFailure Run} (alike : Alike result result')
    (warnings : List String) :
    Alike (result.map (fun outcome => outcome.warned warnings))
      (result'.map (fun outcome => outcome.warned warnings)) := by
  cases alike with
  | failed failure => exact .failed failure
  | upToDate kept kept' => exact .upToDate kept kept'
  | analysed files reported kept kept' =>
    simp only [Except.map, Run.warned, Option.map_some]
    apply Alike.analysed
    · exact files
    · exact congrArg (warnings ++ ·) reported

/-! ### Runs over a repository on disk -/

section OnDisk

variable {site site' : Site} {options options' : RunOptions}

theorem run_of_gather {warnings : List String}
    (gathered : gather site options = .ok (files, warnings)) (store : Option Store) :
    run grammar site options store =
      (update (jobOf (standardParser grammar) site options) (rawContents files) store).map
        (fun outcome => outcome.warned warnings) :=
  runWith_of_gather gathered store

theorem updateEnds_jobOf (grammar : Source.Grammar) (site : Site) (options : RunOptions)
    (files : OrderedMap String (List UInt8)) (store : Option Store) :
    UpdateEnds grammar site.pathText (recordedCommit site options.commit) files store
      (update (jobOf (standardParser grammar) site options) (rawContents files) store) :=
  updateEnds_rawContents (jobOf (standardParser grammar) site options) rfl ⟨options.now, rfl⟩ files
    store

/-- A run over the same files with the same store ends in the same way at any time. -/
theorem alike_run (rooted : site'.pathText = site.pathText)
    (contents : gather site' options' = gather site options) (store : Option Store) :
    Alike (run grammar site options store) (run grammar site' options' store) := by
  rcases gathered : gather site options with flaw | ⟨files, warnings⟩
  · have ended : ∀ (site : Site) (options : RunOptions), gather site options = .error flaw →
        run grammar site options store = .error (.discovery flaw) := by
      intro site options flawed
      simp only [run, runWith, flawed, Except.mapError, bind, Except.bind]
    rw [ended site options gathered, ended site' options' (contents.trans gathered)]
    exact .failed _
  · rw [run_of_gather gathered, run_of_gather (contents.trans gathered)]
    have second := updateEnds_jobOf grammar site' options' files store
    rw [rooted] at second
    exact ((updateEnds_jobOf grammar site options files store).alike second).warned warnings

/-- What stands behind the analysis that a run returns. -/
structure Analyses (grammar : Source.Grammar) (site : Site) (options : RunOptions)
    (store : Option Store) (files : OrderedMap String (List UInt8)) (analysis : Analysis)
    (kept : Option Store) : Prop where
  gathered : ∃ warnings, gather site options = .ok (files, warnings)
  analysed : ∃ own, IsAnalysisOf grammar files (recordedCommit site options.commit) own ∧
    analysis.files = own.files ∧ storeAfter store site.pathText own = .ok kept
  stale : ∃ previous, previousSnapshot store site.pathText = .ok previous ∧
    isUpToDate (rawContents files) previous = .ok false

/-- A run that returns an analysis found files that were not up to date. -/
theorem analyses_of_run {kept : Option Store}
    (returned : run grammar site options store = .ok ⟨some analysis, kept⟩) :
    ∃ files, Analyses grammar site options store files analysis kept := by
  rcases gathered : gather site options with flaw | ⟨files, warnings⟩
  · simp [run, runWith, gathered, Except.mapError, bind, Except.bind] at returned
  · refine ⟨files, ?_⟩
    rw [run_of_gather gathered] at returned
    obtain ⟨outcome, updated, warned⟩ := map_eq_ok_iff.1 returned
    have ends := updateEnds_jobOf grammar site options files store
    generalize update (jobOf (standardParser grammar) site options) (rawContents files) store =
      result at *
    cases ends with
    | unreadable held => cases updated
    | upToDate held same =>
      cases updated
      cases warned
    | @analysed previous own held stale facts =>
      obtain ⟨kept', stored, rfl⟩ := map_eq_ok_iff.1 updated
      cases warned
      exact ⟨⟨warnings, gathered⟩, ⟨own, facts, rfl, stored⟩, previous, held, stale⟩

end OnDisk

end RepoAtlas.Repository
