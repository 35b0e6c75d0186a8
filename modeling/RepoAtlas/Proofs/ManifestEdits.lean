/-
Module: RepoAtlas.Proofs.ManifestEdits
Purpose: Which manifests a run sees, and what it reports when one of them is edited.
  A manifest passes every test of discovery but one: files with hidden names are passed over before
  anything else is asked, and three manifests have such names.  A run that sees a manifest with
  another fingerprint than the one on record asks for a full analysis.
Main exports: detect_cases, mem_changed_of_detect, needsFullAnalysis_of_detect, hiddenManifests,
  InView, InView.mem_discover_iff, InSight, IsEdited, record_of_run, reports_of_run, exists_run,
  manifest_seen_unless_hidden
-/
import RepoAtlas.Proofs.ContentDifferences
import RepoAtlas.Proofs.GatheredFiles
import RepoAtlas.Proofs.RepeatedRuns

namespace RepoAtlas

open Text.Utf8

/-! ### Reports of changes -/

namespace Changes

variable {contents : OrderedMap Points Content} {previous : Option Snapshot} {changes : Changes}
  {path : Points}

/-- What a comparison reports: the statuses since the snapshot on record, or every file as added. -/
theorem detect_cases (hashable : AreHashable contents)
    (detected : detect contents previous = .ok changes) :
    (∃ snapshot ∈ previous, changes =
        ofStatuses snapshot.files.keys (contents.mapWithKey (statusHere snapshot.files))) ∨
      changes = { added := contents.keys, needsFullAnalysis := true } := by
  unfold detect at detected
  split at detected
  · next snapshot compatible =>
    rw [since, traverse_statusOf hashable] at detected
    cases detected
    exact .inl ⟨snapshot, (Option.filter_eq_some_iff.1 compatible).1, rfl⟩
  · cases detected
    exact .inr rfl

/-- A comparison reports every present file whose fingerprint is not the one on record. -/
theorem mem_changed_of_detect (hashable : AreHashable contents)
    (detected : detect contents previous = .ok changes) (present : path ∈ contents.keys)
    (edited : ∀ snapshot ∈ previous, snapshot.hashes path ≠ hashesOf contents path) :
    path ∈ changes.changed := by
  obtain ⟨snapshot, held, rfl⟩ | rfl := detect_cases hashable detected
  · cases found : contents.get? path with
    | none => exact absurd present ((contents.get?_eq_none_iff path).1 found)
    | some content =>
      have listed : (contents.mapWithKey (statusHere snapshot.files)).get? path =
          some (statusHere snapshot.files path content) := by
        rw [OrderedMap.get?_mapWithKey, found, Option.map_some]
      have other : statusHere snapshot.files path content ≠ .unchanged := by
        intro same
        obtain ⟨hash, recorded, hashed⟩ := (statusHere_eq_unchanged_iff snapshot path content).1 same
        apply edited snapshot held
        rw [recorded, hashesOf, found, Option.bind_some, hashed]
      simp only [changed, ofStatuses, List.mem_append, mem_pathsWith_iff, listed]
      cases status : statusHere snapshot.files path content with
      | added => simp
      | modified => simp
      | unchanged => exact absurd status other
  · simp [changed, present]

/-- Only present files are reported as added or modified. -/
theorem mem_keys_of_detect (hashable : AreHashable contents)
    (detected : detect contents previous = .ok changes)
    (reported : path ∈ changes.added ∨ path ∈ changes.modified) : path ∈ contents.keys := by
  obtain ⟨snapshot, -, rfl⟩ | rfl := detect_cases hashable detected
  · have present {status : Status} (listed : path ∈
        pathsWith (contents.mapWithKey (statusHere snapshot.files)) status) :
        path ∈ contents.keys := by
      rw [← OrderedMap.keys_mapWithKey contents (statusHere snapshot.files)]
      exact (pathsWith_sublist _ status).subset listed
    exact reported.elim present present
  · simpa using reported

/-- A manifest among the reported files asks for a full analysis. -/
theorem needsFullAnalysis_of_detect (hashable : AreHashable contents)
    (detected : detect contents previous = .ok changes) (reported : path ∈ changes.changed)
    (manifest : isManifest path = true) : changes.needsFullAnalysis = true := by
  obtain ⟨snapshot, -, rfl⟩ | rfl := detect_cases hashable detected
  · have asked : (ofStatuses snapshot.files.keys
        (contents.mapWithKey (statusHere snapshot.files))).changed.any isManifest = true :=
      List.any_eq_true.2 ⟨path, reported, manifest⟩
    exact if_pos asked
  · rfl

end Changes

namespace Repository

open Disk Ignore Store

/-! ### Manifests that are discovered -/

/-- The name of a file is the same in its path and in the code points of its path. -/
theorem lastName_points (path : String) : lastName (points path) = points (Path.fileName path) := by
  rw [lastName, points, points, Path.fileName, String.toList_ofList, Path.fileNameChars,
    ← List.map_reverse, List.takeWhile_map, List.map_reverse]
  simp [Function.comp_def]

theorem isManifest_points_iff (path : String) :
    isManifest path = true ↔ Path.fileName path ∈ manifestFiles := by
  simp only [isManifest, List.any_eq_true, decide_eq_true_eq, lastName_points, points_inj,
    exists_eq_right']

/-- The manifests with hidden names. -/
def hiddenManifests : List String := [".eslintrc", ".eslintrc.js", ".eslintrc.json"]

theorem isHidden_manifest_iff {name : String} (manifest : name ∈ manifestFiles) :
    isHidden name = false ↔ name ∉ hiddenManifests := by
  have each : ∀ name ∈ manifestFiles, isHidden name = false ↔ name ∉ hiddenManifests := by decide
  exact each name manifest

/-- Whether a manifest with the given bytes passes every test of discovery but that of its own
name. -/
structure InView (site : Site) (listing : Listing) (excluded : String → Bool) (filter : Filter)
    (directories : List String) (name : String) (bytes : List UInt8) : Prop where
  tree : (Entry.directory (topEntries site)).IsTree
  manifest : name ∈ manifestFiles
  /-- A regular file stands there, and no link is on the way to it. -/
  present : entryAt (.directory (topEntries site)) (directories ++ [name]) = some (.file bytes)
  entered : ∀ directory ∈ directories,
    directory ∉ skippedDirectories ∧ isHidden directory = false
  tracked : ∀ paths, listing = .tracked paths → relativeText (directories ++ [name]) ∈ paths
  notIgnored : ∀ ignored, listing = .ignoring ignored →
    ignored (relativeText (directories ++ [name])) = false
  notExcluded : excluded (relativeText (directories ++ [name])) = false
  /-- A file that cannot be measured counts as empty. -/
  small : ∀ cap, filter.sizeLimit = some cap →
    (measuredSize site ⟨directories ++ [name], bytes.length⟩ : Int) ≤ cap

namespace InView

variable {site : Site} {listing : Listing} {excluded : String → Bool} {filter : Filter}
  {directories : List String} {name : String} {bytes : List UInt8}

theorem isSegment (view : InView site listing excluded filter directories name bytes) :
    ∀ segment ∈ directories ++ [name], Path.IsSegment segment.toList :=
  isSegment_of_entryAt view.tree view.present

theorem isManifest (view : InView site listing excluded filter directories name bytes) :
    isManifest (relativeText (directories ++ [name])) = true := by
  rw [isManifest_points_iff, fileName_relativeText directories (view.isSegment name (by simp))]
  exact view.manifest

/-- Such a manifest is discovered exactly when its name is not hidden. -/
theorem mem_discover_iff (view : InView site listing excluded filter directories name bytes) :
    relativeText (directories ++ [name]) ∈ discover site listing excluded filter ↔
      name ∉ hiddenManifests := by
  rw [Repository.mem_discover_iff view.tree, ← isHidden_manifest_iff view.manifest]
  constructor
  · rintro ⟨directories', name', bytes', same, file⟩
    -- The text tells the names on the way, so the file found is the manifest itself.
    have route : directories ++ [name] = directories' ++ [name'] :=
      Overview.pathOf_injOn (by simp) (by simp) view.isSegment
        (isSegment_of_entryAt view.tree file.present) same
    obtain ⟨-, named⟩ := List.append_inj' route rfl
    cases named
    exact file.shown
  · intro shown
    exact ⟨directories, name, bytes, rfl, {
      present := view.present
      entered := view.entered
      shown
      listed := view.tracked
      notIgnored := view.notIgnored
      notExcluded := view.notExcluded
      small := view.small
      wanted := .inl view.isManifest }⟩

end InView

/-- Whether a manifest is in view for the listing and the exclusions that a repository has. -/
structure InSight (site : Site) (filter : Filter) (directories : List String) (name : String)
    (bytes : List UInt8) : Prop where
  view : ∃ listing excluded, listingOf site = .ok listing ∧ excludedBy site filter = .ok excluded ∧
    InView site listing excluded filter directories name bytes

namespace InSight

variable {site : Site} {filter : Filter} {directories : List String} {name : String}
  {bytes : List UInt8}

theorem isManifest (sight : InSight site filter directories name bytes) :
    RepoAtlas.isManifest (relativeText (directories ++ [name])) = true := by
  obtain ⟨_, _, _, _, view⟩ := sight.view
  exact view.isManifest

/-- A manifest in sight is discovered exactly when its name is not hidden. -/
theorem exists_discoverFiles (sight : InSight site filter directories name bytes) :
    ∃ paths, discoverFiles site filter = .ok paths ∧
      (relativeText (directories ++ [name]) ∈ paths ↔ name ∉ hiddenManifests) := by
  obtain ⟨listing, excluded, listed, excludes, view⟩ := sight.view
  exact ⟨_, discoverFiles_of_listingOf listed excludes, view.mem_discover_iff⟩

end InSight

/-- What a run asks discovery for. -/
def RunOptions.filter (options : RunOptions) : Filter :=
  { language := options.language, sizeLimit := options.sizeLimit }

section Gathered

variable {visit : Visit} {directories : List String} {name : String} {bytes : List UInt8}

/-- A manifest in sight is among the gathered files with its bytes, if it can be read and its name is
not hidden. -/
theorem InSight.exists_gather
    (sight : InSight visit.site visit.options.filter directories name bytes)
    (readable : IsReadable visit.site (directories ++ [name])) (shown : name ∉ hiddenManifests) :
    ∃ files warnings, gather visit.site visit.options = .ok (files, warnings) ∧
      files.get? (relativeText (directories ++ [name])) = some bytes := by
  obtain ⟨paths, discovered, listed⟩ := sight.exists_discoverFiles
  obtain ⟨_, _, _, _, view⟩ := sight.view
  have unhidden : ∀ segment ∈ directories ++ [name], isHidden segment = false := by
    intro segment member
    rcases List.mem_append.1 member with above | last
    · exact (view.entered segment above).2
    · cases List.mem_singleton.1 last
      exact (isHidden_manifest_iff view.manifest).2 shown
  refine ⟨_, _, gather_of_discover discovered, get?_readFiles (listed.2 shown) ?_⟩
  exact readFileAs_of_isReadable view.tree (by simp) view.present unhidden readable

/-- A manifest with a hidden name is not among them. -/
theorem InSight.exists_gather_without
    (sight : InSight visit.site visit.options.filter directories name bytes)
    (hidden : name ∈ hiddenManifests) :
    ∃ files warnings, gather visit.site visit.options = .ok (files, warnings) ∧
      relativeText (directories ++ [name]) ∉ files.keys := by
  obtain ⟨paths, discovered, listed⟩ := sight.exists_discoverFiles
  refine ⟨_, _, gather_of_discover discovered, ?_⟩
  intro present
  exact listed.1 (mem_of_mem_readFiles present) hidden

end Gathered

/-! ### Runs over edited files -/

section Runs

variable {grammar : Source.Grammar} {site : Site} {options : RunOptions} {store kept : Option Store}
  {files : OrderedMap String (List UInt8)} {warnings : List String} {previous : Option Snapshot}
  {path : String} {result : Option Analysis}

/-- Contents are up to date only with a snapshot since which nothing changed. -/
theorem changed_of_isUpToDate {contents : OrderedMap String Content}
    (same : isUpToDate contents previous = .ok true) :
    ∃ changes, Changes.detect (underPoints contents) previous = .ok changes ∧
      changes.changed = [] := by
  unfold isUpToDate at same
  split at same
  · cases same
  · split at same
    · next changes detected =>
      refine ⟨changes, detected, ?_⟩
      simpa [Changes.hasChanges] using same
    · cases same

/-- A run that returns found its files up to date or analysed them.  Its report is then the
comparison with the snapshot on record. -/
theorem run_cases (gathered : gather site options = .ok (files, warnings))
    (returned : run grammar site options store = .ok ⟨result, kept⟩) :
    ∃ previous, previousSnapshot store site.pathText = .ok previous ∧
      (isUpToDate (rawContents files) previous = .ok true ∧ result = none ∧ kept = store ∨
        ∃ own, IsAnalysisOf grammar files (recordedCommit site options.commit) own ∧
          Changes.detect (underPoints (rawContents files)) previous = .ok own.changes ∧
          storeAfter store site.pathText own = .ok kept ∧
          result = some { own with warnings := warnings ++ own.warnings }) := by
  rw [run_of_gather gathered] at returned
  obtain ⟨outcome, updated, warned⟩ := map_eq_ok_iff.1 returned
  obtain ⟨previous, held, rest⟩ := bind_eq_ok_iff.1 updated
  obtain ⟨verdict, compared, rest⟩ := bind_eq_ok_iff.1 rest
  refine ⟨previous, held, ?_⟩
  cases verdict with
  | true =>
    cases rest
    cases warned
    exact .inl ⟨compared, rfl, rfl⟩
  | false =>
    let request := (jobOf (standardParser grammar) site options).request previous
    obtain ⟨own, analysed, rest⟩ := bind_eq_ok_iff.1 rest
    obtain ⟨kept, stored, rest⟩ := bind_eq_ok_iff.1 rest
    cases rest
    cases warned
    -- The parser of this library ends no run, so the analysis is the one that it always gives.
    obtain ⟨_, again, facts⟩ := exists_isAnalysisOf request rfl ⟨_, rfl⟩ files
    cases (mapError_eq_ok_iff.1 analysed).symm.trans again
    obtain ⟨_, _, changes, detected, rfl⟩ := (analyze_eq_ok_iff request own).1 again
    exact .inr ⟨_, facts, detected, stored, rfl⟩

theorem mem_changed_of_files {changes : Changes}
    (detected : Changes.detect (underPoints (rawContents files)) previous = .ok changes)
    (present : path ∈ files.keys)
    (edited : ∀ snapshot ∈ previous, snapshot.hashes path ≠ fileHashes files path) :
    points path ∈ changes.changed := by
  apply Changes.mem_changed_of_detect (areHashable_underPoints.2 (areHashable_rawContents files))
    detected
  · rw [keys_underPoints, rawContents, OrderedMap.keys_mapWithKey]
    exact List.mem_map_of_mem present
  · rwa [hashesOf_rawContents]

/-- The store takes the snapshot of an analysis that parsed something, and otherwise is left as it
was. -/
theorem storeAfter_cases {key : String} {analysis : Analysis}
    (stored : storeAfter store key analysis = .ok kept) :
    (∃ before after, store = some before ∧ kept = some after ∧
        before.write key analysis.snapshot = .ok after) ∨
      kept = store ∧ (store = none ∨ analysis.hasParsed = false) := by
  cases store with
  | none =>
    cases stored
    exact .inr ⟨rfl, .inl rfl⟩
  | some before =>
    cases parsed : analysis.hasParsed with
    | true =>
      simp only [storeAfter, parsed, if_true, mapError_eq_ok_iff, map_eq_ok_iff] at stored
      obtain ⟨after, written, rfl⟩ := stored
      exact .inl ⟨before, after, rfl, rfl, written⟩
    | false =>
      simp only [storeAfter, parsed, Bool.false_eq_true, if_false] at stored
      cases stored
      exact .inr ⟨rfl, .inr rfl⟩

/-- What is on record once an analysis is handed to the store has the fingerprints of its files.  An
analysis that parsed nothing is not recorded, and there must have been nothing on record before. -/
theorem record_of_storeAfter {key commit : String} {analysis : Analysis}
    (facts : IsAnalysisOf grammar files commit analysis)
    (stored : storeAfter store key analysis = .ok kept)
    (settled : analysis.hasParsed = true ∨ previousSnapshot store key = .ok none) :
    ∃ previous, previousSnapshot kept key = .ok previous ∧
      ∀ snapshot ∈ previous, snapshot.hashes = fileHashes files := by
  obtain ⟨before, after, rfl, rfl, written⟩ | ⟨rfl, rfl | unparsed⟩ := storeAfter_cases stored
  · obtain ⟨found, read, _, _, hashes⟩ := Store.read_of_write facts.legible facts.current written
    refine ⟨some found, by simp only [previousSnapshot, read, Except.mapError], ?_⟩
    rintro _ ⟨⟩
    exact hashes.trans facts.hashes
  · exact ⟨none, rfl, by simp⟩
  · exact ⟨none, settled.resolve_left (by simp [unparsed]), by simp⟩

/-- After a run the fingerprint on record, if anything is on record, is that of the file it saw. -/
theorem record_of_run (gathered : gather site options = .ok (files, warnings))
    (present : path ∈ files.keys) (returned : run grammar site options store = .ok ⟨result, kept⟩)
    (settled : result.all Analysis.hasParsed = true ∨
      previousSnapshot store site.pathText = .ok none) :
    ∃ previous, previousSnapshot kept site.pathText = .ok previous ∧
      ∀ snapshot ∈ previous, snapshot.hashes path = fileHashes files path := by
  obtain ⟨previous, held, ⟨same, rfl, rfl⟩ | ⟨own, facts, detected, stored, rfl⟩⟩ :=
    run_cases gathered returned
  · obtain ⟨changes, detected, nothing⟩ := changed_of_isUpToDate same
    refine ⟨previous, held, ?_⟩
    rintro snapshot ⟨⟩
    by_contra edited
    have reported : points path ∈ changes.changed := by
      apply mem_changed_of_files detected present
      rintro _ ⟨⟩
      exact edited
    simp [nothing] at reported
  · obtain ⟨previous, held, hashes⟩ := record_of_storeAfter facts stored settled
    exact ⟨previous, held, fun snapshot listed => congrFun (hashes snapshot listed) path⟩

/-- A run reports a file whose fingerprint is not the one on record, and for a manifest it asks for a
full analysis. -/
theorem reports_of_run (gathered : gather site options = .ok (files, warnings))
    (present : path ∈ files.keys) (held : previousSnapshot store site.pathText = .ok previous)
    (edited : ∀ snapshot ∈ previous, snapshot.hashes path ≠ fileHashes files path)
    (manifest : isManifest path = true)
    (returned : run grammar site options store = .ok ⟨result, kept⟩) :
    ∃ analysis, result = some analysis ∧ points path ∈ analysis.changes.changed ∧
      analysis.changes.needsFullAnalysis = true := by
  obtain ⟨_, again, ⟨same, rfl, rfl⟩ | ⟨own, facts, detected, stored, rfl⟩⟩ :=
    run_cases gathered returned
  · cases held.symm.trans again
    obtain ⟨changes, detected, nothing⟩ := changed_of_isUpToDate same
    have reported := mem_changed_of_files detected present edited
    simp [nothing] at reported
  · cases held.symm.trans again
    have reported := mem_changed_of_files detected present edited
    refine ⟨_, rfl, reported, ?_⟩
    exact Changes.needsFullAnalysis_of_detect
      (areHashable_underPoints.2 (areHashable_rawContents files)) detected reported manifest

/-- A run reports no file as added or modified that it has not gathered. -/
theorem mem_keys_of_run {analysis : Analysis}
    (gathered : gather site options = .ok (files, warnings))
    (returned : run grammar site options store = .ok ⟨some analysis, kept⟩)
    (reported : points path ∈ analysis.changes.added ∨ points path ∈ analysis.changes.modified) :
    path ∈ files.keys := by
  obtain ⟨previous, held, ⟨_, impossible, _⟩ | ⟨own, facts, detected, stored, same⟩⟩ :=
    run_cases gathered returned
  · cases impossible
  · cases same
    have present := Changes.mem_keys_of_detect
      (areHashable_underPoints.2 (areHashable_rawContents files)) detected reported
    rw [keys_underPoints, rawContents, OrderedMap.keys_mapWithKey] at present
    exact (List.mem_map_of_injective points_injective).1 present

/-- A run returns over files for which the parser gives answers, if the store reads and nothing
stands in the way of their snapshot. -/
theorem exists_run (gathered : gather site options = .ok (files, warnings))
    (held : previousSnapshot store site.pathText = .ok previous)
    (free : ∀ place ∈ store, place.isFree site.pathText = true)
    (answers : ∀ entry ∈ files.entries, Answers (standardParser grammar) entry.1 entry.2) :
    ∃ outcome, run grammar site options store = .ok outcome := by
  have ends := updateEnds_jobOf grammar site options files store
  rw [run_of_gather gathered]
  generalize update (jobOf (standardParser grammar) site options) (rawContents files) store = ended
    at *
  cases ends with
  | unreadable failed => cases held.symm.trans failed
  | upToDate => exact ⟨_, rfl⟩
  | @analysed _ analysis _ _ facts =>
    have stored : ∃ kept, storeAfter store site.pathText analysis = .ok kept := by
      cases store with
      | none => exact ⟨none, rfl⟩
      | some place =>
        apply storeAfter_of_recordable _ facts.current (free place rfl)
        obtain ⟨moment, snapshot⟩ := facts.snapshot
        rw [snapshot]
        exact recordable_newSnapshot answers _ _
    obtain ⟨kept, stored⟩ := stored
    rw [stored]
    exact ⟨_, rfl⟩

/-- Whether something stands in the way of a snapshot does not change by a run. -/
theorem isFree_of_run (gathered : gather site options = .ok (files, warnings))
    (returned : run grammar site options store = .ok ⟨result, kept⟩)
    (free : ∀ place ∈ store, place.isFree site.pathText = true) :
    ∀ place ∈ kept, place.isFree site.pathText = true := by
  obtain ⟨previous, held, ⟨_, _, rfl⟩ | ⟨own, facts, detected, stored, _⟩⟩ :=
    run_cases gathered returned
  · exact free
  · obtain ⟨before, after, rfl, rfl, written⟩ | ⟨rfl, _⟩ := storeAfter_cases stored
    · rintro _ ⟨⟩
      rw [Store.isFree_of_write written]
      exact free before rfl
    · exact free

end Runs

/-! ### Edits between two runs -/

/-- Whether a manifest is edited between two visits to a repository: both times it is in sight and can
be read, and the second time it has another fingerprint. -/
structure IsEdited (before later : Visit) (directories : List String) (name : String)
    (old new : List UInt8) : Prop where
  rooted : later.site.pathText = before.site.pathText
  sight : InSight before.site before.options.filter directories name old
  readable : IsReadable before.site (directories ++ [name])
  laterSight : InSight later.site later.options.filter directories name new
  laterReadable : IsReadable later.site (directories ++ [name])
  differs : Content.fingerprintOfBytes old ≠ Content.fingerprintOfBytes new

/-- A manifest in view is discovered, whatever the language asked for and whatever is ignored or
excluded, exactly when its name is not hidden.  If it is not hidden and is edited between two runs,
the second run reports it and asks for a full analysis.  The first run must have been recorded or up
to date, or have found nothing on record; the second returns if the parser gives an answer for each
file and nothing refuses the document.  A manifest with a hidden name is never reported as added or
modified. -/
theorem manifest_seen_unless_hidden (grammar : Source.Grammar) (directories : List String)
    (name : String) :
    let path := relativeText (directories ++ [name])
    (∀ site listing excluded filter bytes,
      InView site listing excluded filter directories name bytes →
        (path ∈ discover site listing excluded filter ↔ name ∉ hiddenManifests)) ∧
    (∀ site filter bytes, InSight site filter directories name bytes →
      ∃ paths, discoverFiles site filter = .ok paths ∧ (path ∈ paths ↔ name ∉ hiddenManifests)) ∧
    (∀ before later old new store result kept,
      IsEdited before later directories name old new → name ∉ hiddenManifests →
      run grammar before.site before.options store = .ok ⟨result, kept⟩ →
      result.all Analysis.hasParsed = true ∨
        previousSnapshot store before.site.pathText = .ok none →
      (∀ result' kept', run grammar later.site later.options kept = .ok ⟨result', kept'⟩ →
        ∃ analysis, result' = some analysis ∧ points path ∈ analysis.changes.changed ∧
          analysis.changes.needsFullAnalysis = true) ∧
      ((∀ place ∈ store, place.isFree before.site.pathText = true) →
        (∀ files warnings, gather later.site later.options = .ok (files, warnings) →
          ∀ entry ∈ files.entries, Answers (standardParser grammar) entry.1 entry.2) →
        ∃ outcome, run grammar later.site later.options kept = .ok outcome)) ∧
    ∀ (visit : Visit) bytes store analysis kept,
      InSight visit.site visit.options.filter directories name bytes → name ∈ hiddenManifests →
      run grammar visit.site visit.options store = .ok ⟨some analysis, kept⟩ →
      points path ∉ analysis.changes.added ∧ points path ∉ analysis.changes.modified := by
  intro path
  refine ⟨fun _ _ _ _ _ view => view.mem_discover_iff,
    fun _ _ _ sight => sight.exists_discoverFiles, ?_, ?_⟩
  · intro before later old new store result kept edited shown returned settled
    obtain ⟨files, warnings, gathered, found⟩ := edited.sight.exists_gather edited.readable shown
    obtain ⟨files', warnings', gathered', found'⟩ :=
      edited.laterSight.exists_gather edited.laterReadable shown
    obtain ⟨previous, held, hashes⟩ :=
      record_of_run gathered (OrderedMap.mem_keys_of_get? found) returned settled
    rw [← edited.rooted] at held
    have other : ∀ snapshot ∈ previous, snapshot.hashes path ≠ fileHashes files' path := by
      intro snapshot listed same
      rw [hashes snapshot listed, fileHashes, fileHashes, get?_underPoints, get?_underPoints, found,
        found'] at same
      exact edited.differs (points_inj.1 (Option.some.inj same))
    constructor
    · intro result' kept' returned'
      exact reports_of_run gathered' (OrderedMap.mem_keys_of_get? found') held other
        edited.laterSight.isManifest returned'
    · intro free answers
      apply exists_run gathered' held
      · rw [edited.rooted]
        exact isFree_of_run gathered returned free
      · exact answers files' warnings' gathered'
  · intro visit bytes store analysis kept sight hidden returned
    obtain ⟨files, warnings, gathered, absent⟩ := sight.exists_gather_without hidden
    constructor
    · exact fun added => absent (mem_keys_of_run gathered returned (.inl added))
    · exact fun modified => absent (mem_keys_of_run gathered returned (.inr modified))

/-- A tree of two manifests with the given bytes, one of them hidden. -/
def manifestTree (bytes : List UInt8) : List (String × Entry) :=
  [("setup.py", .file bytes), (".eslintrc.json", .file bytes)]

/-- A visit to a repository with that tree, without version control and ignore file. -/
def manifestVisit (bytes : List UInt8) : Visit where
  site := { disk := { root := .directory [("r", .directory (manifestTree bytes))] }, root := ["r"] }
  options := { commit := some "one", now := .zero }

theorem topEntries_manifestVisit (bytes : List UInt8) :
    topEntries (manifestVisit bytes).site = manifestTree bytes := by
  simp +decide [topEntries, locate, place, placeFrom, childNamed, manifestVisit]

theorem isTree_manifestTree (bytes : List UInt8) :
    (Entry.directory (manifestTree bytes)).IsTree := by
  refine .directory (by simp [manifestTree]) ?_ ?_
  · simp only [manifestTree, List.forall_mem_cons]
    exact ⟨⟨by decide, by decide⟩, ⟨by decide, by decide⟩, List.forall_mem_nil _⟩
  · simp only [manifestTree, List.forall_mem_cons]
    exact ⟨.file, .file, List.forall_mem_nil _⟩

theorem walk_manifestTree (bytes : List UInt8) :
    walk [] (manifestTree bytes) = [⟨["setup.py"], bytes.length⟩] := by
  have shown : isHidden "setup.py" = false := by decide
  have hidden : isHidden ".eslintrc.json" = true := by decide
  simp [manifestTree, walk, walkEntry, shown, hidden]

theorem listingOf_manifestVisit (bytes : List UInt8) :
    listingOf (manifestVisit bytes).site = .ok (.ignoring (isIgnored [])) := by
  have unversioned : (manifestVisit bytes).site.trackedFiles? = none := by
    simp +decide [Site.trackedFiles?, Site.outputOf, Site.isVersioned, pathExists, locate, place,
      placeFrom, childNamed, manifestVisit, manifestTree]
  have unread : ignoreLines (manifestVisit bytes).site = .ok [] := by
    simp +decide [ignoreLines, isFile, locate, place, placeFrom, childNamed, manifestVisit,
      manifestTree]
  rw [listingOf, unversioned, ignoredBy, unread]
  rfl

theorem inView_manifestVisit {bytes : List UInt8} (small : bytes.length ≤ 1) {name : String}
    (listed : name = "setup.py" ∨ name = ".eslintrc.json") :
    InView (manifestVisit bytes).site (.ignoring (isIgnored [])) (fun _ => false)
      (manifestVisit bytes).options.filter [] name bytes where
  tree := by
    rw [topEntries_manifestVisit]
    exact isTree_manifestTree bytes
  manifest := by rcases listed with rfl | rfl <;> decide
  present := by
    rw [topEntries_manifestVisit]
    rcases listed with rfl | rfl <;> rfl
  entered := List.forall_mem_nil _
  tracked := by simp
  notIgnored := by
    intro ignored same
    cases same
    rfl
  notExcluded := rfl
  small := by
    intro cap given
    cases given
    have measured : measuredSize (manifestVisit bytes).site ⟨[] ++ [name], bytes.length⟩ ≤ 1 := small
    exact (Int.ofNat_le.2 measured).trans (by decide)

theorem inSight_manifestVisit {bytes : List UInt8} (small : bytes.length ≤ 1) {name : String}
    (listed : name = "setup.py" ∨ name = ".eslintrc.json") :
    InSight (manifestVisit bytes).site (manifestVisit bytes).options.filter [] name bytes :=
  ⟨_, _, listingOf_manifestVisit bytes, rfl, inView_manifestVisit small listed⟩

theorem isReadable_manifestVisit (bytes : List UInt8) :
    IsReadable (manifestVisit bytes).site ["setup.py"] where
  allowed := List.not_mem_nil
  named := by decide
  short := by
    change (pathText ["r", "setup.py"]).utf8ByteSize ≤ pathLimit
    decide

theorem discoverFiles_manifestVisit {bytes : List UInt8} (small : bytes.length ≤ 1) :
    discoverFiles (manifestVisit bytes).site (manifestVisit bytes).options.filter =
      .ok ["setup.py"] := by
  have view := inView_manifestVisit small (.inl rfl)
  have wanted : isWanted (manifestVisit bytes).site (.ignoring (isIgnored [])) (fun _ => false)
      (manifestVisit bytes).options.filter ⟨["setup.py"], bytes.length⟩ = true := by
    rw [isWanted_iff]
    exact ⟨⟨view.tracked, view.notIgnored⟩, view.notExcluded, .inl view.isManifest, view.small⟩
  rw [discoverFiles_of_listingOf (listingOf_manifestVisit bytes) rfl, discover, allFiles_eq_walk,
    topEntries_manifestVisit, walk_manifestTree, List.filter_singleton, wanted]
  simp only [cond_true, List.map_singleton, List.mergeSort_singleton]
  decide

theorem gather_manifestVisit {bytes : List UInt8} (small : bytes.length ≤ 1) :
    gather (manifestVisit bytes).site (manifestVisit bytes).options =
      .ok (OrderedMap.ofList [("setup.py", bytes)], []) := by
  have view := inView_manifestVisit small (.inl rfl)
  have read := readFileAs_of_isReadable view.tree (by simp) view.present (by decide)
    (isReadable_manifestVisit bytes)
  have text : relativeText ([] ++ ["setup.py"]) = "setup.py" := by decide
  rw [text] at read
  rw [gather_of_discover (discoverFiles_manifestVisit small), readFiles, List.map_singleton, read]
  rfl

theorem answers_manifestVisit {bytes : List UInt8} (blank : bytes = [] ∨ bytes = [0x0A]) :
    ∀ entry ∈ (OrderedMap.ofList [("setup.py", bytes)]).entries,
      Answers (standardParser Source.statements) entry.1 entry.2 := by
  intro entry member
  rcases List.mem_singleton.1 member with rfl
  refine ⟨handles_standardParser _ _ _, ?_⟩
  intro outline outlined
  have parsed : outlineOf (standardParser Source.statements) "setup.py" (.raw bytes) =
      some { language := "python" } := by
    rcases blank with rfl | rfl <;> cbv
  cases parsed.symm.trans outlined
  decide

theorem isEdited_manifestVisit :
    IsEdited (manifestVisit []) (manifestVisit [0x0A]) [] "setup.py" [] [0x0A] where
  rooted := rfl
  sight := inSight_manifestVisit (by decide) (.inl rfl)
  readable := isReadable_manifestVisit []
  laterSight := inSight_manifestVisit (by decide) (.inl rfl)
  laterReadable := isReadable_manifestVisit [0x0A]
  differs := by decide +kernel

/-- Of two manifests that get a line feed between two runs, the second run reports the one whose name
is not hidden. -/
theorem manifest_seen_of_line_feed :
    ∃ result kept analysis after,
      run Source.statements (manifestVisit []).site (manifestVisit []).options
        (some (.documents {} {})) = .ok ⟨result, kept⟩ ∧
      run Source.statements (manifestVisit [0x0A]).site (manifestVisit [0x0A]).options kept =
        .ok ⟨some analysis, after⟩ ∧
      points (relativeText ["setup.py"]) ∈ analysis.changes.changed ∧
      analysis.changes.needsFullAnalysis = true ∧
      points (relativeText [".eslintrc.json"]) ∉ analysis.changes.modified := by
  obtain ⟨_, _, reported, _⟩ := manifest_seen_unless_hidden Source.statements [] "setup.py"
  obtain ⟨_, _, _, unseen⟩ := manifest_seen_unless_hidden Source.statements [] ".eslintrc.json"
  obtain ⟨⟨result, kept⟩, returned⟩ : ∃ outcome, run Source.statements
      (manifestVisit []).site (manifestVisit []).options (some (.documents {} {})) = .ok outcome := by
    apply exists_run (gather_manifestVisit (by decide)) rfl
    · rintro _ ⟨⟩
      rfl
    · exact answers_manifestVisit (.inl rfl)
  obtain ⟨reports, returns⟩ := reported _ _ _ _ _ _ _ isEdited_manifestVisit (by decide) returned
    (.inr rfl)
  obtain ⟨⟨result', after⟩, returned'⟩ : ∃ outcome, run Source.statements
      (manifestVisit [0x0A]).site (manifestVisit [0x0A]).options kept = .ok outcome := by
    apply returns
    · rintro _ ⟨⟩
      rfl
    · intro files warnings gathered
      cases (gather_manifestVisit (by decide)).symm.trans gathered
      exact answers_manifestVisit (.inr rfl)
  obtain ⟨analysis, rfl, changed, full⟩ := reports _ _ returned'
  obtain ⟨-, unmodified⟩ := unseen _ _ _ _ _ (inSight_manifestVisit (by decide) (.inr rfl))
    (by decide) returned'
  exact ⟨result, kept, analysis, after, returned, returned', changed, full, unmodified⟩

end Repository

end RepoAtlas
