/-
Module: RepoAtlas.Proofs.ContentDifferences
Purpose: The changes from one set of contents to another, seen through the snapshot of the first.
  Every present path has one status and every recorded path is present or deleted, so the four lists
  of paths lose nothing and count nothing twice.  A path in both contents is judged by its bytes, as
  far as fingerprints tell them apart.
Main exports: IsDifference, mem_pathsWith_iff, get?_statusesHere, isDifference_changesHere,
  detect_snapshotHere, differences_of_contents
-/
import RepoAtlas.Proofs.AnalysisOutcome
import Mathlib.Data.List.Nodup

namespace RepoAtlas

open Text.Utf8

/-- What the differences between old and new contents are.  Added, modified and unchanged paths are
those of the new contents in their order, each in one of the lists; the deleted ones are those of the
old contents that are not in the new.  A path in both is unchanged if its bytes are the same, and
modified if they differ and have different fingerprints. -/
structure IsDifference (old new : OrderedMap Points Content) (changes : Changes) : Prop where
  added_sublist : changes.added.Sublist new.keys
  modified_sublist : changes.modified.Sublist new.keys
  unchanged_sublist : changes.unchanged.Sublist new.keys
  added_modified : changes.added.Disjoint changes.modified
  added_unchanged : changes.added.Disjoint changes.unchanged
  modified_unchanged : changes.modified.Disjoint changes.unchanged
  present_perm : (changes.added ++ changes.modified ++ changes.unchanged).Perm new.keys
  deleted_eq : changes.deleted = old.keys.filter (fun path => path ∉ new.keys)
  recorded_count : changes.modified.length + changes.unchanged.length + changes.deleted.length =
    old.size
  replay_perm : (old.keys.filter (fun path => path ∉ changes.deleted) ++ changes.added).Perm new.keys
  unchanged_of_bytes : ∀ path before after bytes, old.get? path = some before →
    new.get? path = some after → before.bytes = .ok bytes → after.bytes = .ok bytes →
    path ∈ changes.unchanged
  modified_of_bytes : ∀ path before after bytes bytes', old.get? path = some before →
    new.get? path = some after → before.bytes = .ok bytes → after.bytes = .ok bytes' →
    bytes ≠ bytes' → Content.fingerprintOfBytes bytes ≠ Content.fingerprintOfBytes bytes' →
    path ∈ changes.modified

namespace Changes

section Statuses

variable (statuses : OrderedMap Points Status)

/-- The paths with a status are those that have it in the map. -/
theorem mem_pathsWith_iff (status : Status) (path : Points) :
    path ∈ pathsWith statuses status ↔ statuses.get? path = some status := by
  rw [OrderedMap.get?_eq_some_iff, pathsWith, List.mem_map]
  constructor
  · rintro ⟨⟨name, given⟩, member, rfl⟩
    obtain ⟨listed, same⟩ := List.mem_filter.1 member
    obtain rfl : given = status := by simpa using same
    exact listed
  · intro listed
    exact ⟨(path, status), List.mem_filter.2 ⟨listed, by simp⟩, rfl⟩

theorem pathsWith_sublist (status : Status) :
    (pathsWith statuses status).Sublist statuses.keys :=
  List.filter_sublist.map Prod.fst

theorem disjoint_pathsWith {first second : Status} (different : first ≠ second) :
    (pathsWith statuses first).Disjoint (pathsWith statuses second) := by
  intro path one other
  rw [mem_pathsWith_iff] at one other
  exact different (Option.some.inj (one.symm.trans other))

theorem nodup_pathsWith (status : Status) : (pathsWith statuses status).Nodup :=
  (pathsWith_sublist statuses status).nodup statuses.nodup

/-- Different statuses share no path, so their lists together have no path twice. -/
theorem nodup_pathsWith_append {first second : Status} (different : first ≠ second) :
    (pathsWith statuses first ++ pathsWith statuses second).Nodup :=
  List.Nodup.append (nodup_pathsWith statuses first) (nodup_pathsWith statuses second)
    (disjoint_pathsWith statuses different)

/-- Every path has exactly one status. -/
theorem pathsWith_perm_keys :
    (pathsWith statuses .added ++ pathsWith statuses .modified ++
      pathsWith statuses .unchanged).Perm statuses.keys := by
  have apart : (pathsWith statuses .added ++ pathsWith statuses .modified).Disjoint
      (pathsWith statuses .unchanged) :=
    List.disjoint_append_left.2 ⟨disjoint_pathsWith statuses (by decide),
      disjoint_pathsWith statuses (by decide)⟩
  have distinct := List.Nodup.append
    (nodup_pathsWith_append statuses (show Status.added ≠ .modified by decide))
    (nodup_pathsWith statuses .unchanged) apart
  apply (List.perm_ext_iff_of_nodup distinct statuses.nodup).2
  intro path
  change _ ↔ path ∈ statuses.keys
  rw [← not_iff_not, ← OrderedMap.get?_eq_none_iff]
  simp only [List.mem_append, mem_pathsWith_iff]
  cases statuses.get? path with
  | none => simp
  | some status => cases status <;> simp

end Statuses

section Comparison

variable (old new : OrderedMap Points Content) (files : OrderedMap Points (Option Outline))
  (commit : Points) (stamp : Stamp)

/-- The statuses of new contents that are compared with the snapshot of old ones. -/
def statusesHere : OrderedMap Points Status :=
  new.mapWithKey (statusHere (old.mapWithKey (stateHere files stamp)))

/-- The changes that those statuses show. -/
def changesHere : Changes :=
  ofStatuses old.keys (statusesHere old new files stamp)

/-- The comparison of new contents with the snapshot of old ones succeeds. -/
theorem detect_snapshotHere {new : OrderedMap Points Content} (hashable : AreHashable new) :
    detect new (some (snapshotHere files old commit stamp)) =
      .ok (changesHere old new files stamp) := by
  have compatible : (some (snapshotHere files old commit stamp)).filter Snapshot.isCompatible =
      some (snapshotHere files old commit stamp) := rfl
  rw [detect, compatible]
  simp only [since, traverse_statusOf hashable, snapshotHere, OrderedMap.keys_mapWithKey]
  rfl

theorem keys_statusesHere : (statusesHere old new files stamp).keys = new.keys :=
  new.keys_mapWithKey _

theorem get?_statusesHere (path : Points) :
    (statusesHere old new files stamp).get? path =
      (new.get? path).map (statusHere (old.mapWithKey (stateHere files stamp)) path) :=
  new.get?_mapWithKey _ path

/-- A present path is added exactly when it is not in the old contents. -/
theorem get?_statusesHere_eq_added_iff (path : Points) :
    (statusesHere old new files stamp).get? path = some .added ↔
      path ∈ new.keys ∧ path ∉ old.keys := by
  rw [get?_statusesHere, ← not_iff_not, not_and_or, ← old.get?_eq_none_iff, ← new.get?_eq_none_iff]
  cases new.get? path with
  | none => simp
  | some after =>
    unfold statusHere
    rw [OrderedMap.get?_mapWithKey]
    cases old.get? path with
    | none => simp
    | some before =>
      simp only [Option.map_some]
      split <;> simp

/-- A path in both contents is judged by the two fingerprints. -/
theorem get?_statusesHere_of_recorded {old new : OrderedMap Points Content} {path : Points}
    {before after : Content} (recorded : old.get? path = some before)
    (present : new.get? path = some after)
    {hash hash' : String} (hashed : before.fingerprint = .ok hash)
    (hashed' : after.fingerprint = .ok hash') :
    (statusesHere old new files stamp).get? path =
      some (if hash' = hash then .unchanged else .modified) := by
  simp [get?_statusesHere, present, statusHere, recorded, stateHere,
    Content.hash?_of_fingerprint hashed, Content.hash?_of_fingerprint hashed']

/-- The modified and the unchanged paths are those in both contents. -/
theorem recorded_perm :
    ((changesHere old new files stamp).modified ++
      (changesHere old new files stamp).unchanged).Perm
        (old.keys.filter (fun path => path ∈ new.keys)) := by
  have distinct := nodup_pathsWith_append (statusesHere old new files stamp)
    (show Status.modified ≠ .unchanged by decide)
  apply (List.perm_ext_iff_of_nodup distinct (List.Nodup.filter _ old.nodup)).2
  intro path
  have added := get?_statusesHere_eq_added_iff old new files stamp path
  have absent := (statusesHere old new files stamp).get?_eq_none_iff path
  rw [keys_statusesHere] at absent
  rw [List.mem_append, mem_pathsWith_iff, mem_pathsWith_iff, List.mem_filter, decide_eq_true_eq]
  change _ ↔ path ∈ old.keys ∧ path ∈ new.keys
  cases found : (statusesHere old new files stamp).get? path with
  | none => simp_all
  | some status => cases status <;> simp_all

theorem deleted_changesHere :
    (changesHere old new files stamp).deleted = old.keys.filter (fun path => path ∉ new.keys) := by
  apply List.filter_congr
  intro path _
  rw [Bool.eq_iff_iff, Bool.not_eq_true', Bool.eq_false_iff, Ne, OrderedMap.contains_eq_true_iff,
    keys_statusesHere, decide_eq_true_eq]

/-- Without the deleted paths and with the added ones, the old paths are the new paths. -/
theorem replay_perm_changesHere :
    (old.keys.filter (fun path => path ∉ (changesHere old new files stamp).deleted) ++
      (changesHere old new files stamp).added).Perm new.keys := by
  have kept : old.keys.filter (fun path => path ∉ (changesHere old new files stamp).deleted) =
      old.keys.filter (fun path => path ∈ new.keys) := by
    apply List.filter_congr
    intro path listed
    simp [deleted_changesHere, listed]
  have statuses := pathsWith_perm_keys (statusesHere old new files stamp)
  rw [keys_statusesHere, List.append_assoc] at statuses
  rw [kept]
  exact (List.perm_append_comm.trans ((recorded_perm old new files stamp).symm.append_left _)).trans
    statuses

theorem recorded_count_changesHere :
    (changesHere old new files stamp).modified.length +
      (changesHere old new files stamp).unchanged.length +
      (changesHere old new files stamp).deleted.length = old.size := by
  have both := (recorded_perm old new files stamp).length_eq
  have all := List.length_eq_length_filter_add (l := old.keys) (fun path => decide (path ∈ new.keys))
  rw [List.length_append] at both
  simp only [deleted_changesHere, decide_not] at both all ⊢
  rw [both, ← all, OrderedMap.keys, List.length_map, OrderedMap.size]

/-- The changes from the snapshot of old contents are the differences between the contents. -/
theorem isDifference_changesHere : IsDifference old new (changesHere old new files stamp) where
  added_sublist := keys_statusesHere old new files stamp ▸ pathsWith_sublist _ _
  modified_sublist := keys_statusesHere old new files stamp ▸ pathsWith_sublist _ _
  unchanged_sublist := keys_statusesHere old new files stamp ▸ pathsWith_sublist _ _
  added_modified := disjoint_pathsWith _ (by decide)
  added_unchanged := disjoint_pathsWith _ (by decide)
  modified_unchanged := disjoint_pathsWith _ (by decide)
  present_perm := keys_statusesHere old new files stamp ▸ pathsWith_perm_keys _
  deleted_eq := deleted_changesHere old new files stamp
  recorded_count := recorded_count_changesHere old new files stamp
  replay_perm := replay_perm_changesHere old new files stamp
  unchanged_of_bytes := by
    intro path before after bytes recorded present encoded encoded'
    have same : before.fingerprint = .ok (Content.fingerprintOfBytes bytes) := by
      rw [Content.fingerprint, encoded]
      rfl
    have same' : after.fingerprint = .ok (Content.fingerprintOfBytes bytes) := by
      rw [Content.fingerprint, encoded']
      rfl
    apply (mem_pathsWith_iff _ _ _).2
    rw [get?_statusesHere_of_recorded files stamp recorded present same same', if_pos rfl]
  modified_of_bytes := by
    intro path before after bytes bytes' recorded present encoded encoded' _ apart
    have one : before.fingerprint = .ok (Content.fingerprintOfBytes bytes) := by
      rw [Content.fingerprint, encoded]
      rfl
    have other : after.fingerprint = .ok (Content.fingerprintOfBytes bytes') := by
      rw [Content.fingerprint, encoded']
      rfl
    apply (mem_pathsWith_iff _ _ _).2
    rw [get?_statusesHere_of_recorded files stamp recorded present one other, if_neg (Ne.symm apart)]

end Comparison

/-- Nothing asks for a full analysis where nothing differs. -/
theorem needsFullAnalysis_of_unchanged {recorded : List Points}
    {statuses : OrderedMap Points Status}
    (unchanged : (ofStatuses recorded statuses).hasChanges = false) :
    (ofStatuses recorded statuses).needsFullAnalysis = false := by
  have empty : (ofStatuses recorded statuses).changed = [] := by
    simpa [hasChanges] using unchanged
  change asksForFullAnalysis (ofStatuses recorded statuses).changed statuses.size = false
  rw [empty]
  rfl

end Changes

/-- Contents that are compared with the snapshot of others.  Both the snapshot and the comparison
succeed, and the changes are the differences between the contents; contents compared with their own
snapshot show no change and ask for no full analysis. -/
theorem differences_of_contents {old new : OrderedMap Points Content} (recorded : AreHashable old)
    (present : AreHashable new) (files : OrderedMap Points (Option Outline)) (commit : Points)
    (stamp : Stamp) :
    ∃ snapshot, Snapshot.take files old commit stamp = .ok snapshot ∧
      (∃ changes, Changes.detect new (some snapshot) = .ok changes ∧
        IsDifference old new changes) ∧
      ∃ changes, Changes.detect old (some snapshot) = .ok changes ∧
        changes.hasChanges = false ∧ changes.needsFullAnalysis = false := by
  refine ⟨snapshotHere files old commit stamp, take_of_hashable recorded files commit stamp,
    ⟨_, Changes.detect_snapshotHere old files commit stamp present,
      Changes.isDifference_changesHere old new files stamp⟩,
    _, Changes.detect_snapshotHere old files commit stamp recorded, ?_⟩
  obtain ⟨changes, compared, unchanged⟩ :=
    Changes.since_of_hashable recorded (snapshotHere files old commit stamp)
  have same : changes = Changes.changesHere old old files stamp :=
    Except.ok.inj (compared.symm.trans
      (Changes.detect_snapshotHere old files commit stamp recorded))
  have still := unchanged.2 (hashes_snapshotHere recorded files commit stamp)
  rw [same] at still
  exact ⟨still, Changes.needsFullAnalysis_of_unchanged still⟩

/-- Contents of three files, one of them a text with an escaped byte. -/
def earlierContents : OrderedMap Points Content where
  entries := [("a.py", .raw [0x61]), ("gone.py", .raw []),
    ("b.py", .text [.scalar 'é', .surrogate 0x4FF])]
  nodup := by decide

/-- The same text as bytes, a changed file and a new one. -/
def laterContents : OrderedMap Points Content where
  entries := [("new.py", .ofText "x"), ("b.py", .raw [0xC3, 0xA9, 0xFF]), ("a.py", .raw [0x62])]
  nodup := by decide

theorem differences_of_laterContents :
    AreHashable earlierContents ∧ AreHashable laterContents ∧
      ∃ snapshot changes, Snapshot.take {} earlierContents "c1" (.integer 5) = .ok snapshot ∧
        Changes.detect laterContents (some snapshot) = .ok changes ∧
        changes.deleted = [points "gone.py"] ∧ points "b.py" ∈ changes.unchanged ∧
        points "a.py" ∈ changes.modified := by
  have recorded : AreHashable earlierContents := by
    intro entry member
    simp only [earlierContents, List.mem_cons, List.not_mem_nil, or_false] at member
    rcases member with rfl | rfl | rfl <;> exact ⟨_, rfl⟩
  have present : AreHashable laterContents := by
    intro entry member
    simp only [laterContents, List.mem_cons, List.not_mem_nil, or_false] at member
    rcases member with rfl | rfl | rfl <;> exact ⟨_, rfl⟩
  obtain ⟨snapshot, taken, ⟨changes, compared, difference⟩, _⟩ :=
    differences_of_contents recorded present {} "c1" (.integer 5)
  have deleted : changes.deleted = [points "gone.py"] := difference.deleted_eq.trans (by decide)
  have unchanged : points "b.py" ∈ changes.unchanged :=
    difference.unchanged_of_bytes "b.py" _ _ [0xC3, 0xA9, 0xFF] rfl rfl rfl rfl
  have apart : Content.fingerprintOfBytes [0x61] ≠ Content.fingerprintOfBytes [0x62] := by
    decide +kernel
  have modified : points "a.py" ∈ changes.modified :=
    difference.modified_of_bytes "a.py" _ _ [0x61] [0x62] rfl rfl rfl rfl (by decide) apart
  exact ⟨recorded, present, snapshot, changes, taken, compared, deleted, unchanged, modified⟩

end RepoAtlas
