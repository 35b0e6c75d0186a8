/-
Module: RepoAtlas.Proofs.RunHistory
Purpose: What the store holds for a repository after any history of runs over it.
  A ledger is kept beside the store: the contents of the last run that was recorded.  One run keeps
  the two in step, and so does every history of runs.  From the ledger it follows when a run finds
  nothing to do.
Main exports: Visit, Ledger, Ends, Ledger.ends_of_runWith, Ledger.exists_runWith, Progress,
  Ledger.through, Ending, Ending.Holds, ending_of_every_run
-/
import RepoAtlas.Proofs.AnalysisOutcome
import RepoAtlas.Proofs.DocumentStore
import RepoAtlas.Repository.Update
import Mathlib

namespace RepoAtlas

open Json Text.Utf8

namespace Store

variable {store : Store} {key : String}

/-- What a store gives back of a snapshot that it took: the same commit and fingerprints. -/
theorem read_of_write {snapshot : Snapshot} {after : Store} (legible : snapshot.Legible)
    (current : snapshot.version = Snapshot.currentVersion)
    (written : store.write key snapshot = .ok after) :
    ∃ found, after.read key = .ok (some found) ∧ found.version = Snapshot.currentVersion ∧
      found.commit = snapshot.commit ∧ found.hashes = snapshot.hashes := by
  cases store with
  | memory snapshots =>
    cases written
    refine ⟨snapshot, ?_, current, rfl, rfl⟩
    simp [Store.read]
  | documents directory nesting =>
    obtain ⟨after, kept, rfl⟩ := map_eq_ok_iff.1 written
    obtain ⟨writable, free, rfl⟩ := (StateDirectory.write_eq_ok_iff _ _ _ _).1 kept
    have restores := Snapshot.restores_readBack current
    refine ⟨snapshot.readBack, ?_, restores.version, restores.commit, ?_⟩
    · rw [Store.read, StateDirectory.read_put free]
      exact snapshotOfBytes_of_recordable (legible.recordable writable) current nesting
    · funext path
      have same := congrArg (Option.map Prod.fst) (restores.states path)
      simpa [Snapshot.hashes, Option.map_map, Function.comp_def, FileState.essence] using same

/-- A store takes a recordable snapshot where nothing stands in its way. -/
theorem write_of_recordable {snapshot : Snapshot} (recordable : snapshot.Recordable)
    (current : snapshot.version = Snapshot.currentVersion) (free : store.isFree key = true) :
    ∃ after, store.write key snapshot = .ok after := by
  cases store with
  | memory snapshots => exact ⟨_, rfl⟩
  | documents directory nesting =>
    have written :=
      StateDirectory.write_of_recordable recordable current (Option.isNone_iff_eq_none.1 free)
    exact ⟨_, map_eq_ok_iff.2 ⟨_, written, rfl⟩⟩

/-- Whether something stands in the way does not change by writing. -/
theorem isFree_of_write {snapshot : Snapshot} {after : Store}
    (written : store.write key snapshot = .ok after) : after.isFree key = store.isFree key := by
  cases store with
  | memory snapshots =>
    cases written
    rfl
  | documents directory nesting =>
    obtain ⟨after, kept, rfl⟩ := map_eq_ok_iff.1 written
    obtain ⟨_, free, rfl⟩ := (StateDirectory.write_eq_ok_iff _ _ _ _).1 kept
    have kept := StateDirectory.refusal?_put (.file (documentBytes snapshot)) (by simp) free
    simp only [Store.isFree, free, kept]

end Store

namespace Repository

open Store

/-- One run over a repository: the state of its place, and what is asked for. -/
structure Visit where
  site : Site
  options : RunOptions

/-- The contents of files on disk as an analysis receives them. -/
def rawContents (files : OrderedMap String (List UInt8)) : OrderedMap String Content :=
  files.mapWithKey (fun _ bytes => .raw bytes)

/-- The fingerprint of the file under a path. -/
def fileHashes (files : OrderedMap String (List UInt8)) (path : Points) : Option Points :=
  ((underPoints files).get? path).map (fun bytes => points (Content.fingerprintOfBytes bytes))

section RawContents

theorem areHashable_rawContents (files : OrderedMap String (List UInt8)) :
    AreHashable (rawContents files) := by
  intro entry member
  obtain ⟨⟨path, bytes⟩, _, rfl⟩ := List.mem_map.1 member
  exact ⟨Content.fingerprintOfBytes bytes, rfl⟩

theorem hashesOf_rawContents (files : OrderedMap String (List UInt8)) :
    hashesOf (underPoints (rawContents files)) = fileHashes files := by
  funext path
  rw [hashesOf, rawContents, underPoints_mapWithKey, OrderedMap.get?_mapWithKey, fileHashes]
  cases (underPoints files).get? path <;> rfl

end RawContents

/-- Whether a parser gives an answer for a file, with few enough definitions for their number to be
written. -/
def Answers (parser : Parser) (path : String) (bytes : List UInt8) : Prop :=
  parser.Handles path (.raw bytes) ∧
    ∀ outline, outlineOf parser path (.raw bytes) = some outline →
      isShortInteger outline.symbolCount = true

section Snapshots

theorem isUnpaired_hash (content : Content) : IsUnpaired (content.hash?.getD []) := by
  unfold Content.hash?
  cases content.fingerprint.toOption with
  | none => exact isUnpaired_points ""
  | some hash => exact isUnpaired_points hash

variable {parser : Parser} {files : OrderedMap String (List UInt8)}

/-- The texts of a snapshot that an analysis takes are those of strings. -/
theorem legible_newSnapshot (parser : Parser) (contents : OrderedMap String Content)
    (commit : String) (moment : Number.Binary64) :
    (newSnapshot parser contents commit (.real moment)).Legible where
  commit := isUnpaired_points commit
  paths := by
    rw [newSnapshot, snapshotHere, OrderedMap.keys_mapWithKey, keys_underPoints, List.forall_mem_map]
    exact fun path _ => isUnpaired_points path
  states := by
    intro entry member
    obtain ⟨⟨path, content⟩, _, rfl⟩ := List.mem_map.1 member
    exact ⟨isUnpaired_hash content, moment, rfl⟩

/-- The snapshot of files for which the parser gives answers can be recorded. -/
theorem recordable_newSnapshot (answers : ∀ entry ∈ files.entries, Answers parser entry.1 entry.2)
    (commit : String) (moment : Number.Binary64) :
    (newSnapshot parser (rawContents files) commit (.real moment)).Recordable where
  toLegible := legible_newSnapshot parser (rawContents files) commit moment
  counts := by
    intro entry member
    obtain ⟨⟨_, _⟩, renamed, rfl⟩ := List.mem_map.1 member
    obtain ⟨⟨_, _⟩, raw, same⟩ := List.mem_map.1 renamed
    cases same
    obtain ⟨⟨name, bytes⟩, listed, same⟩ := List.mem_map.1 raw
    cases same
    have found := ((rawContents files).get?_eq_some_iff name (.raw bytes)).2 raw
    simp only [stateHere, Snapshot.symbolCountAt, get?_underPoints, OrderedMap.get?_mapWithKey,
      found, Option.map_some, Option.join_some]
    cases outlined : outlineOf parser name (.raw bytes) with
    | none => decide
    | some outline => exact (answers _ listed).2 outline outlined

end Snapshots

section Stages

variable {contents : OrderedMap String Content} {store : Store} {previous : Option Snapshot}

theorem update_of_upToDate (job : Job) (held : store.read job.key = .ok previous)
    (compared : isUpToDate contents previous = .ok true) :
    update job contents (some store) = .ok ⟨none, some store⟩ := by
  simp only [update, previousSnapshot, held, compared, Except.mapError, bind, Except.bind, pure,
    Except.pure, if_true]

/-- The request that a run makes of the analysis. -/
def Job.request (job : Job) (previous : Option Snapshot) : Request :=
  { name := job.name, repositoryPath := job.path, previous := previous, commit := job.commit,
    stamp := job.stamp, parser := job.parser }

/-- A run over contents that are not up to date returns exactly when the analysis does and the store
takes its snapshot. -/
theorem update_eq_ok_iff_of_stale (job : Job) (outcome : Run)
    (held : store.read job.key = .ok previous)
    (compared : isUpToDate contents previous = .ok false) :
    update job contents (some store) = .ok outcome ↔
      ∃ analysis, analyze (job.request previous) contents = .ok analysis ∧
        ∃ kept, storeAfter (some store) job.key analysis = .ok kept ∧
          ⟨some analysis, kept⟩ = outcome := by
  have looked : previousSnapshot (some store) job.key = .ok previous := by
    simp only [previousSnapshot, held, Except.mapError]
  unfold update Job.request
  simp [bind_eq_ok_iff, mapError_eq_ok_iff, looked, compared, pure, Except.pure]

theorem runWith_of_gather {parser : Parser} {site : Site} {options : RunOptions}
    {files : OrderedMap String (List UInt8)} {warnings : List String}
    (gathered : gather site options = .ok (files, warnings)) (store : Option Store) :
    runWith parser site options store =
      (update (jobOf parser site options) (rawContents files) store).map
        (fun outcome => outcome.warned warnings) := by
  simp only [runWith, gathered, Except.mapError, bind, Except.bind, pure, Except.pure, Except.map,
    rawContents]

end Stages

section Ledgers

/-- Whether a store holds for a key what the last recorded run left there: nothing before the first
such run, and the fingerprints of its files after it. -/
structure Ledger (key : String) (store : Store)
    (recorded : Option (OrderedMap String (List UInt8))) : Prop where
  held : ∃ previous : Option Snapshot, store.read key = .ok previous ∧
    previous.map Snapshot.hashes = recorded.map fileHashes ∧
    ∀ snapshot ∈ previous, snapshot.version = Snapshot.currentVersion

/-- What one run over files makes of a store and of the contents last recorded. -/
inductive Ends (key commit : String) (files : OrderedMap String (List UInt8)) (store : Store)
    (recorded : Option (OrderedMap String (List UInt8))) :
    Option Analysis → Store → Option (OrderedMap String (List UInt8)) → Prop where
  /-- The fingerprints are those last recorded, and nothing is done. -/
  | upToDate (same : recorded.map fileHashes = some (fileHashes files)) :
      Ends key commit files store recorded none store recorded
  /-- The fingerprints are others and some file is parsed, so the files are recorded. -/
  | recorded {analysis : Analysis} {after : Store} {snapshot : Snapshot}
      (stale : recorded.map fileHashes ≠ some (fileHashes files))
      (parsed : analysis.hasParsed = true) (free : after.isFree key = store.isFree key)
      (found : after.read key = .ok (some snapshot))
      (version : snapshot.version = Snapshot.currentVersion)
      (committed : snapshot.commit = points commit) (hashed : snapshot.hashes = fileHashes files) :
      Ends key commit files store recorded (some analysis) after (some files)
  /-- The fingerprints are others and no file is parsed, so the store is left alone. -/
  | unparsed {analysis : Analysis} (stale : recorded.map fileHashes ≠ some (fileHashes files))
      (unparsed : analysis.hasParsed = false) :
      Ends key commit files store recorded (some analysis) store recorded

variable {key commit : String} {files : OrderedMap String (List UInt8)} {store after : Store}
  {recorded recorded' : Option (OrderedMap String (List UInt8))} {result : Option Analysis}

/-- One run keeps the ledger in step with the store. -/
theorem Ends.ledger (ends : Ends key commit files store recorded result after recorded')
    (ledger : Ledger key store recorded) : Ledger key after recorded' := by
  cases ends with
  | upToDate => exact ledger
  | unparsed => exact ledger
  | @recorded _ _ snapshot _ _ _ found version _ hashed =>
    refine ⟨some snapshot, found, by simp [hashed], ?_⟩
    intro other same
    cases same
    exact version

theorem Ends.isFree (ends : Ends key commit files store recorded result after recorded') :
    after.isFree key = store.isFree key := by
  cases ends with
  | upToDate => rfl
  | unparsed => rfl
  | recorded _ _ free => exact free

/-- The comparison of files with what a store holds finds no change exactly when their fingerprints
are those last recorded. -/
theorem Ledger.isUpToDate (ledger : Ledger key store recorded)
    (files : OrderedMap String (List UInt8)) :
    ∃ previous verdict, store.read key = .ok previous ∧
      Repository.isUpToDate (rawContents files) previous = .ok verdict ∧
      (verdict = true ↔ recorded.map fileHashes = some (fileHashes files)) := by
  obtain ⟨previous, held, hashes, current⟩ := ledger
  cases previous with
  | none =>
    refine ⟨none, false, held, rfl, ?_⟩
    rw [← hashes]
    simp
  | some snapshot =>
    obtain ⟨changes, compared, unchanged⟩ :=
      Changes.since_of_hashable (areHashable_underPoints.2 (areHashable_rawContents files)) snapshot
    have compatible : (some snapshot).filter Snapshot.isCompatible = some snapshot := by
      simp [Option.filter, Snapshot.isCompatible, current snapshot rfl]
    refine ⟨some snapshot, !changes.hasChanges, held, ?_, ?_⟩
    · simp only [Repository.isUpToDate, Changes.detect, compatible, compared]
    · rw [← hashes, Bool.not_eq_true', unchanged, hashesOf_rawContents]
      simp

/-- What has become of the store once files that are not up to date are analysed. -/
theorem ends_of_storeAfter {analysis : Analysis} {kept : Option Store}
    (stale : recorded.map fileHashes ≠ some (fileHashes files))
    (legible : analysis.snapshot.Legible)
    (current : analysis.snapshot.version = Snapshot.currentVersion)
    (committed : analysis.snapshot.commit = points commit)
    (hashed : analysis.snapshot.hashes = fileHashes files)
    (stored : storeAfter (some store) key analysis = .ok kept) (warnings : List String) :
    ∃ after recorded', kept = some after ∧
      Ends key commit files store recorded (some { analysis with warnings := warnings }) after
        recorded' := by
  cases parsed : analysis.hasParsed with
  | true =>
    simp only [storeAfter, parsed, if_true, mapError_eq_ok_iff, map_eq_ok_iff] at stored
    obtain ⟨after, written, rfl⟩ := stored
    obtain ⟨found, read, version, commits, hashes⟩ := Store.read_of_write legible current written
    exact ⟨after, some files, rfl, .recorded stale parsed (Store.isFree_of_write written) read
      version (commits.trans committed) (hashes.trans hashed)⟩
  | false =>
    simp only [storeAfter, parsed, Bool.false_eq_true, if_false] at stored
    cases stored
    exact ⟨store, recorded, rfl, .unparsed stale parsed⟩

/-- The store takes what an analysis of recordable files gives it, if nothing stands in the way. -/
theorem storeAfter_of_recordable {analysis : Analysis} (recordable : analysis.snapshot.Recordable)
    (current : analysis.snapshot.version = Snapshot.currentVersion)
    (free : store.isFree key = true) :
    ∃ kept, storeAfter (some store) key analysis = .ok kept := by
  cases parsed : analysis.hasParsed with
  | true =>
    obtain ⟨after, written⟩ := Store.write_of_recordable recordable current free
    exact ⟨some after, by simp [storeAfter, parsed, written, Except.map, Except.mapError]⟩
  | false => exact ⟨some store, by simp [storeAfter, parsed]⟩

variable {parser : Parser} {visit : Visit} {warnings : List String}

/-- Every run that returns ends in one of the three ways. -/
theorem Ledger.ends_of_runWith (ledger : Ledger key store recorded)
    (rooted : visit.site.pathText = key)
    (gathered : gather visit.site visit.options = .ok (files, warnings)) {kept : Option Store}
    (returned : runWith parser visit.site visit.options (some store) = .ok ⟨result, kept⟩) :
    ∃ after recorded', kept = some after ∧
      Ends key (recordedCommit visit.site visit.options.commit) files store recorded result after
        recorded' := by
  subst rooted
  let job := jobOf parser visit.site visit.options
  obtain ⟨previous, verdict, held, compared, decided⟩ := ledger.isUpToDate files
  rw [runWith_of_gather gathered] at returned
  cases verdict with
  | true =>
    rw [update_of_upToDate job held compared] at returned
    cases returned
    exact ⟨store, recorded, rfl, .upToDate (decided.1 rfl)⟩
  | false =>
    have stale : recorded.map fileHashes ≠ some (fileHashes files) :=
      fun same => absurd (decided.2 same) (by simp)
    obtain ⟨outcome, updated, warned⟩ := map_eq_ok_iff.1 returned
    obtain ⟨analysis, analysed, kept', stored, rfl⟩ :=
      (update_eq_ok_iff_of_stale job outcome held compared).1 updated
    cases warned
    have hashable := areHashable_rawContents files
    have taken := snapshot_of_analyze analysed
    apply ends_of_storeAfter stale _ _ _ _ stored
    · rw [taken]
      exact legible_newSnapshot _ _ _ _
    · rw [taken]
      rfl
    · rw [taken]
      rfl
    · rw [taken, newSnapshot, hashes_snapshotHere (areHashable_underPoints.2 hashable),
        hashesOf_rawContents]

/-- A run returns over files for which the parser gives answers, if nothing stands in the way of
their snapshot. -/
theorem Ledger.exists_runWith (ledger : Ledger key store recorded)
    (rooted : visit.site.pathText = key)
    (gathered : gather visit.site visit.options = .ok (files, warnings))
    (free : store.isFree key = true)
    (answers : ∀ entry ∈ files.entries, Answers parser entry.1 entry.2) :
    ∃ outcome, runWith parser visit.site visit.options (some store) = .ok outcome := by
  subst rooted
  let job := jobOf parser visit.site visit.options
  obtain ⟨previous, verdict, held, compared, _⟩ := ledger.isUpToDate files
  rw [runWith_of_gather gathered]
  cases verdict with
  | true => exact ⟨_, map_eq_ok_iff.2 ⟨_, update_of_upToDate job held compared, rfl⟩⟩
  | false =>
    have handles : ∀ entry ∈ (rawContents files).entries,
        (job.request previous).parser.Handles entry.1 entry.2 := by
      intro entry member
      obtain ⟨source, listed, rfl⟩ := List.mem_map.1 member
      exact (answers source listed).1
    obtain ⟨analysis, analysed, _, taken⟩ :=
      analyze_of_hashable (job.request previous) (areHashable_rawContents files) handles
    have recordable : analysis.snapshot.Recordable := by
      rw [taken]
      exact recordable_newSnapshot answers _ _
    have current : analysis.snapshot.version = Snapshot.currentVersion := by
      rw [taken]
      rfl
    obtain ⟨kept, stored⟩ := storeAfter_of_recordable recordable current free
    have updated := (update_eq_ok_iff_of_stale job _ held compared).2
      ⟨analysis, analysed, kept, stored, rfl⟩
    exact ⟨_, map_eq_ok_iff.2 ⟨_, updated, rfl⟩⟩

end Ledgers

section Histories

/-- The store, and the files of the last run that returned a result with a parsed file. -/
structure Progress where
  store : Store
  recorded : Option (OrderedMap String (List UInt8)) := none

/-- The progress after a run over files.  A run that does not return leaves everything as it was. -/
def Progress.after (progress : Progress) (files : OrderedMap String (List UInt8)) :
    Except RunFailure Run → Progress
  | .ok outcome =>
    { store := outcome.store.getD progress.store
      recorded := if outcome.result.any Analysis.hasParsed then some files else progress.recorded }
  | .error _ => progress

/-- The progress after one more run. -/
def Progress.next (parser : Parser) (progress : Progress) (visit : Visit) : Progress :=
  match gather visit.site visit.options with
  | .ok (files, _) =>
    progress.after files (runWith parser visit.site visit.options (some progress.store))
  | .error _ => progress

/-- The progress after runs in turn. -/
def Progress.through (parser : Parser) (progress : Progress) (history : List Visit) : Progress :=
  history.foldl (Progress.next parser) progress

variable {key : String} {parser : Parser}

/-- What the ending of a run makes of the progress. -/
theorem Ends.next {commit : String} {files : OrderedMap String (List UInt8)} {progress : Progress}
    {visit : Visit} {warnings : List String} {result : Option Analysis} {after : Store}
    {recorded : Option (OrderedMap String (List UInt8))}
    (ends : Ends key commit files progress.store progress.recorded result after recorded)
    (gathered : gather visit.site visit.options = .ok (files, warnings))
    (returned : runWith parser visit.site visit.options (some progress.store) =
      .ok ⟨result, some after⟩) :
    progress.next parser visit = ⟨after, recorded⟩ := by
  unfold Progress.next
  simp only [gathered, returned, Progress.after, Option.getD_some]
  cases ends with
  | upToDate => simp
  | recorded _ parsed => simp [parsed]
  | unparsed _ unparsed => simp [unparsed]

/-- One visit keeps the ledger in step with the store, whether it returns or not. -/
theorem Ledger.next {progress : Progress} (ledger : Ledger key progress.store progress.recorded)
    {visit : Visit} (rooted : visit.site.pathText = key) :
    Ledger key (progress.next parser visit).store (progress.next parser visit).recorded ∧
      (progress.next parser visit).store.isFree key = progress.store.isFree key := by
  rcases gathered : gather visit.site visit.options with flaw | ⟨files, warnings⟩
  · have same : progress.next parser visit = progress := by
      unfold Progress.next
      simp only [gathered]
    rw [same]
    exact ⟨ledger, rfl⟩
  rcases returned : runWith parser visit.site visit.options (some progress.store) with
    failure | ⟨result, kept⟩
  · have same : progress.next parser visit = progress := by
      unfold Progress.next
      simp only [gathered, returned, Progress.after]
    rw [same]
    exact ⟨ledger, rfl⟩
  · obtain ⟨after, recorded, rfl, ends⟩ := ledger.ends_of_runWith rooted gathered returned
    rw [ends.next gathered returned]
    exact ⟨ends.ledger ledger, ends.isFree⟩

/-- So does every history of visits to one repository. -/
theorem Ledger.through {store : Store} {recorded : Option (OrderedMap String (List UInt8))}
    (ledger : Ledger key store recorded) {history : List Visit}
    (rooted : ∀ visit ∈ history, visit.site.pathText = key) :
    Ledger key (Progress.through parser ⟨store, recorded⟩ history).store
        (Progress.through parser ⟨store, recorded⟩ history).recorded ∧
      (Progress.through parser ⟨store, recorded⟩ history).store.isFree key =
        store.isFree key := by
  induction history generalizing store recorded with
  | nil => exact ⟨ledger, rfl⟩
  | cons visit rest ih =>
    have first : Ledger key (Progress.next parser ⟨store, recorded⟩ visit).store
          (Progress.next parser ⟨store, recorded⟩ visit).recorded ∧
        (Progress.next parser ⟨store, recorded⟩ visit).store.isFree key = store.isFree key :=
      Ledger.next ledger (rooted visit (by simp))
    have later := ih first.1 (fun other listed => rooted other (by simp [listed]))
    exact ⟨later.1, later.2.trans first.2⟩

end Histories

section Endings

/-- How a run can end. -/
inductive Ending where
  | upToDate
  | recorded
  | unparsed
deriving DecidableEq, Repr, Inhabited

/-- What it means that a run over files ended so, with a result and a store before and after it. -/
def Ending.Holds (key commit : String) (files : OrderedMap String (List UInt8))
    (before after : Store) (result : Option Analysis) : Ending → Prop
  | .upToDate => result = none ∧ after = before ∧
      ∃ snapshot, after.read key = .ok (some snapshot) ∧ snapshot.hashes = fileHashes files
  | .recorded => (∃ analysis, result = some analysis ∧ analysis.hasParsed = true) ∧
      ∃ snapshot, after.read key = .ok (some snapshot) ∧ snapshot.commit = points commit ∧
        snapshot.hashes = fileHashes files
  | .unparsed => (∃ analysis, result = some analysis ∧ analysis.hasParsed = false) ∧
      after = before

variable {key commit : String} {files : OrderedMap String (List UInt8)} {before after : Store}
  {result : Option Analysis} {recorded recorded' : Option (OrderedMap String (List UInt8))}

/-- The result alone tells the endings apart. -/
def Ending.ofResult : Option Analysis → Ending
  | none => .upToDate
  | some analysis => if analysis.hasParsed then .recorded else .unparsed

theorem Ending.Holds.eq_ofResult {ending : Ending}
    (holds : ending.Holds key commit files before after result) :
    ending = Ending.ofResult result := by
  cases ending with
  | upToDate =>
    obtain ⟨rfl, _⟩ := holds
    rfl
  | recorded =>
    obtain ⟨⟨analysis, rfl, parsed⟩, _⟩ := holds
    simp [Ending.ofResult, parsed]
  | unparsed =>
    obtain ⟨⟨analysis, rfl, unparsed⟩, _⟩ := holds
    simp [Ending.ofResult, unparsed]

/-- A run that ends in one of the three ways ends in exactly one of them. -/
theorem Ends.existsUnique_ending
    (ends : Ends key commit files before recorded result after recorded')
    (ledger : Ledger key before recorded) :
    ∃! ending : Ending, ending.Holds key commit files before after result := by
  have some_ending : ∃ ending : Ending, ending.Holds key commit files before after result := by
    cases ends with
    | upToDate same =>
      obtain ⟨previous, held, hashes, _⟩ := ledger.held
      rw [same, Option.map_eq_some_iff] at hashes
      obtain ⟨snapshot, rfl, hashed⟩ := hashes
      exact ⟨.upToDate, rfl, rfl, snapshot, held, hashed⟩
    | recorded stale parsed free found version committed hashed =>
      exact ⟨.recorded, ⟨_, rfl, parsed⟩, _, found, committed, hashed⟩
    | unparsed stale unparsed => exact ⟨.unparsed, ⟨_, rfl, unparsed⟩, rfl⟩
  obtain ⟨ending, holds⟩ := some_ending
  exact ⟨ending, holds, fun other held => held.eq_ofResult.trans holds.eq_ofResult.symm⟩

/-- After a run that found nothing to do, or that was recorded, the files of that run are the ones
last recorded. -/
theorem Ends.recorded_of_holds
    (ends : Ends key commit files before recorded result after recorded')
    (settled : Ending.upToDate.Holds key commit files before after result ∨
      Ending.recorded.Holds key commit files before after result) :
    recorded'.map fileHashes = some (fileHashes files) := by
  cases ends with
  | upToDate same => exact same
  | recorded => rfl
  | @unparsed analysis stale unparsed =>
    have ofResult : Ending.ofResult (some analysis) = .unparsed := by
      simp [Ending.ofResult, unparsed]
    rcases settled with holds | holds
    · exact absurd (holds.eq_ofResult.trans ofResult) (by decide)
    · exact absurd (holds.eq_ofResult.trans ofResult) (by decide)

/-- A run over files with the fingerprints last recorded finds nothing to do. -/
theorem Ledger.visit_of_recorded {parser : Parser} {visit : Visit} {warnings : List String}
    (ledger : Ledger key before recorded) (rooted : visit.site.pathText = key)
    (gathered : gather visit.site visit.options = .ok (files, warnings))
    (same : recorded.map fileHashes = some (fileHashes files)) :
    runWith parser visit.site visit.options (some before) = .ok ⟨none, some before⟩ := by
  subst rooted
  obtain ⟨previous, verdict, held, compared, decided⟩ := ledger.isUpToDate files
  rw [decided.2 same] at compared
  rw [runWith_of_gather gathered,
    update_of_upToDate (jobOf parser visit.site visit.options) held compared]
  rfl

/-- A run after any history of runs over one repository, returned or not.  It returns if the parser
gives an answer for each file and nothing refuses its document.  If it returns, it ends in exactly
one of three ways: up to date, recorded, or unparsed.  After one of the first two, a run over the same
files finds nothing to do; and a run finds nothing to do only over files with the fingerprints of
those last recorded. -/
theorem ending_of_every_run (store : Store) (parser : Parser) (history : List Visit) (visit : Visit)
    {warnings : List String} (unheld : store.read key = .ok none)
    (rooted : ∀ other ∈ visit :: history, other.site.pathText = key)
    (gathered : gather visit.site visit.options = .ok (files, warnings)) :
    let progress := Progress.through parser ⟨store, none⟩ history
    let commit := recordedCommit visit.site visit.options.commit
    (store.isFree key = true → (∀ entry ∈ files.entries, Answers parser entry.1 entry.2) →
      ∃ outcome, runWith parser visit.site visit.options (some progress.store) = .ok outcome) ∧
    ∀ result kept,
      runWith parser visit.site visit.options (some progress.store) = .ok ⟨result, kept⟩ →
      ∃ after, kept = some after ∧
        (∃! ending : Ending, ending.Holds key commit files progress.store after result) ∧
        (Ending.upToDate.Holds key commit files progress.store after result ∨
            Ending.recorded.Holds key commit files progress.store after result →
          ∀ (again : Visit) (files' : OrderedMap String (List UInt8)) (warnings' : List String),
            again.site.pathText = key →
            gather again.site again.options = .ok (files', warnings') →
            (∀ path, files'.get? path = files.get? path) →
            runWith parser again.site again.options (some after) = .ok ⟨none, some after⟩) ∧
        (result = none →
          ∃ last, progress.recorded = some last ∧
            ∀ path, fileHashes last path = fileHashes files path) := by
  intro progress commit
  have initial : Ledger key store none := ⟨none, unheld, rfl, by simp⟩
  have here : visit.site.pathText = key := rooted visit (by simp)
  obtain ⟨ledger, unchanged⟩ : Ledger key progress.store progress.recorded ∧
      progress.store.isFree key = store.isFree key :=
    initial.through (fun other earlier => rooted other (by simp [earlier]))
  constructor
  · intro free answers
    exact ledger.exists_runWith here gathered (unchanged.trans free) answers
  intro result kept returned
  obtain ⟨after, recorded, rfl, ends⟩ := ledger.ends_of_runWith here gathered returned
  refine ⟨after, rfl, ends.existsUnique_ending ledger, ?_, ?_⟩
  · intro settled again files' warnings' sameRoot readAgain sameFiles
    have sameHashes : fileHashes files' = fileHashes files := by
      funext path
      rw [fileHashes, fileHashes, get?_underPoints_congr sameFiles]
    apply (ends.ledger ledger).visit_of_recorded sameRoot readAgain
    rw [sameHashes]
    exact ends.recorded_of_holds settled
  · intro nothing
    subst nothing
    cases ends with
    | upToDate same =>
      obtain ⟨last, held, hashes⟩ := Option.map_eq_some_iff.1 same
      exact ⟨last, held, fun path => congrFun hashes path⟩

/-- A repository of one empty source file. -/
def smallSite : Site :=
  { disk := { root := .directory [("home", .directory [("a.py", .file [])])] }
    root := ["home"] }

/-- A visit to the small repository that records the given commit. -/
def smallVisit (commit : String) : Visit :=
  ⟨smallSite, { commit := some commit, now := .zero }⟩

theorem gather_smallVisit (commit : String) :
    gather (smallVisit commit).site (smallVisit commit).options =
      .ok (OrderedMap.ofList [("a.py", [])], []) := by
  cbv

theorem answers_smallVisit : ∀ entry ∈ (OrderedMap.ofList [("a.py", ([] : List UInt8))]).entries,
    Answers (standardParser Source.statements) entry.1 entry.2 := by
  intro entry member
  rcases List.mem_singleton.1 member with rfl
  constructor
  · intro reason failed
    cases failed
  intro outline outlined
  have parsed : outlineOf (standardParser Source.statements) "a.py" (.raw []) =
      some { language := "python" } := by
    cbv
  cases parsed.symm.trans outlined
  decide

/-- The second visit to the small repository, in whose first the store of documents was empty. -/
theorem ending_of_second_run :
    let parser := standardParser Source.statements
    let before := (Progress.through parser ⟨.documents {} {}, none⟩ [smallVisit "one"]).store
    ∃ result after,
      runWith parser (smallVisit "two").site (smallVisit "two").options (some before) =
        .ok ⟨result, some after⟩ ∧
      ∃! ending : Ending, ending.Holds "/home" "two" (OrderedMap.ofList [("a.py", [])]) before
        after result := by
  have rooted : ∀ other ∈ [smallVisit "two", smallVisit "one"], other.site.pathText = "/home" := by
    intro other member
    rcases List.mem_pair.1 member with rfl | rfl <;> rfl
  obtain ⟨returns, ends⟩ :=
    ending_of_every_run (.documents {} {}) (standardParser Source.statements) [smallVisit "one"]
      (smallVisit "two") rfl rooted (gather_smallVisit "two")
  obtain ⟨⟨result, kept⟩, returned⟩ := returns rfl answers_smallVisit
  obtain ⟨after, rfl, ending, _⟩ := ends result kept returned
  exact ⟨result, after, returned, ending⟩

end Endings

end Repository

end RepoAtlas
