/-
Module: RepoAtlas.Proofs.ChangeDetection
Purpose: When the present contents show no change since a snapshot.
  Statuses are given path by path; together they say that nothing changed exactly when contents and
  snapshot have the same fingerprint under every path.
Main exports: get?_underPoints, underPoints_mapWithKey, AreHashable, Content.hash?, hashesOf,
  Snapshot.hashes, traverse_statusOf, hasChanges_ofStatuses_iff, since_of_hashable
-/
import RepoAtlas.Proofs.OrderedMapLaws
import RepoAtlas.Snapshot.Changes

namespace RepoAtlas

open Text.Utf8

section UnderPoints

variable {α : Type} (map : OrderedMap String α)

@[simp] theorem keys_underPoints : (underPoints map).keys = map.keys.map points :=
  map.keys_renameKeys points points_injective

@[simp] theorem get?_underPoints (path : String) :
    (underPoints map).get? (points path) = map.get? path :=
  map.get?_renameKeys points_injective path

theorem get?_underPoints_eq_some_iff (path : Points) (value : α) :
    (underPoints map).get? path = some value ↔
      ∃ name, points name = path ∧ map.get? name = some value :=
  map.get?_renameKeys_eq_some_iff points_injective path value

/-- A change of the values that does not look at the names is the same before and after. -/
theorem underPoints_mapWithKey {β : Type} (change : α → β) :
    underPoints (map.mapWithKey (fun _ => change)) =
      (underPoints map).mapWithKey (fun _ => change) := by
  apply OrderedMap.eq_of_entries
  simp only [underPoints, OrderedMap.renameKeys, OrderedMap.mapWithKey, List.map_map,
    Function.comp_def]

/-- Maps that agree under every name agree under every path. -/
theorem get?_underPoints_congr {first second : OrderedMap String α}
    (same : ∀ name, first.get? name = second.get? name) (path : Points) :
    (underPoints first).get? path = (underPoints second).get? path := by
  apply Option.ext
  intro value
  simp only [get?_underPoints_eq_some_iff, same]

end UnderPoints

/-- Whether every content can be fingerprinted. -/
def AreHashable {κ : Type} (contents : OrderedMap κ Content) : Prop :=
  ∀ entry ∈ contents.entries, ∃ hash, entry.2.fingerprint = .ok hash

/-- The fingerprint of a content that has one. -/
def Content.hash? (content : Content) : Option Points :=
  content.fingerprint.toOption.map points

theorem Content.hash?_of_fingerprint {content : Content} {hash : String}
    (hashed : content.fingerprint = .ok hash) : content.hash? = some (points hash) := by
  rw [hash?, hashed]
  rfl

/-- The fingerprint of the content under a path. -/
def hashesOf (contents : OrderedMap Points Content) (path : Points) : Option Points :=
  (contents.get? path).bind Content.hash?

/-- The fingerprint that a snapshot has under a path. -/
def Snapshot.hashes (snapshot : Snapshot) (path : Points) : Option Points :=
  (snapshot.files.get? path).map FileState.hash

@[simp] theorem areHashable_underPoints {contents : OrderedMap String Content} :
    AreHashable (underPoints contents) ↔ AreHashable contents :=
  List.forall_mem_map

namespace Changes

variable {contents : OrderedMap Points Content}

/-- How a content that can be fingerprinted stands to the recorded states. -/
def statusHere (recorded : OrderedMap Points FileState) (path : Points) (content : Content) :
    Status :=
  match recorded.get? path with
  | none => .added
  | some state => if content.hash? = some state.hash then .unchanged else .modified

theorem statusOf_of_fingerprint (recorded : OrderedMap Points FileState) (path : Points)
    {content : Content} {hash : String} (hashed : content.fingerprint = .ok hash) :
    statusOf recorded path content = .ok (statusHere recorded path content) := by
  unfold statusOf statusHere
  cases recorded.get? path with
  | none => rfl
  | some state => simp [hashed, Content.hash?_of_fingerprint hashed, Except.map, eq_comm]

theorem traverse_statusOf (hashable : AreHashable contents)
    (recorded : OrderedMap Points FileState) :
    contents.traverse (statusOf recorded) = .ok (contents.mapWithKey (statusHere recorded)) := by
  apply OrderedMap.traverse_eq_ok
  intro entry member
  obtain ⟨hash, hashed⟩ := hashable entry member
  exact statusOf_of_fingerprint recorded entry.1 hashed

theorem pathsWith_eq_nil_iff (statuses : OrderedMap Points Status) (status : Status) :
    pathsWith statuses status = [] ↔ ∀ entry ∈ statuses.entries, entry.2 ≠ status := by
  simp [pathsWith]

/-- Nothing differs when every present file is unchanged and every recorded one is present. -/
theorem hasChanges_ofStatuses_iff (recorded : List Points)
    (statuses : OrderedMap Points Status) :
    (ofStatuses recorded statuses).hasChanges = false ↔
      (∀ entry ∈ statuses.entries, entry.2 = .unchanged) ∧
        ∀ path ∈ recorded, path ∈ statuses.keys := by
  have deleted : recorded.filter (fun path => !statuses.contains path) = [] ↔
      ∀ path ∈ recorded, path ∈ statuses.keys := by
    simp [List.filter_eq_nil_iff, OrderedMap.contains_eq_true_iff]
  have present : pathsWith statuses .added = [] ∧ pathsWith statuses .modified = [] ↔
      ∀ entry ∈ statuses.entries, entry.2 = .unchanged := by
    rw [pathsWith_eq_nil_iff, pathsWith_eq_nil_iff]
    constructor
    · rintro ⟨notAdded, notModified⟩ entry member
      cases status : entry.2 with
      | added => exact absurd status (notAdded entry member)
      | modified => exact absurd status (notModified entry member)
      | unchanged => rfl
    · intro unchanged
      constructor <;> intro entry member <;> simp [unchanged entry member]
  simp only [hasChanges, changed, ofStatuses, Bool.not_eq_false', List.isEmpty_iff,
    List.append_eq_nil_iff, present, deleted]

/-- A content is unchanged exactly when the snapshot has its fingerprint under its path. -/
theorem statusHere_eq_unchanged_iff (snapshot : Snapshot) (path : Points) (content : Content) :
    statusHere snapshot.files path content = .unchanged ↔
      ∃ hash, snapshot.hashes path = some hash ∧ content.hash? = some hash := by
  unfold statusHere Snapshot.hashes
  cases snapshot.files.get? path with
  | none => simp
  | some state => simp

/-- All files are unchanged and none is missing exactly when the fingerprints are the same. -/
theorem unchanged_iff_hashes (hashable : AreHashable contents) (snapshot : Snapshot) :
    (∀ entry ∈ contents.entries, statusHere snapshot.files entry.1 entry.2 = .unchanged) ∧
        (∀ path ∈ snapshot.files.keys, path ∈ contents.keys) ↔
      snapshot.hashes = hashesOf contents := by
  constructor
  · rintro ⟨unchanged, present⟩
    funext path
    cases found : contents.get? path with
    | some content =>
      have member := (contents.get?_eq_some_iff path content).1 found
      obtain ⟨hash, recorded, hashed⟩ :=
        (statusHere_eq_unchanged_iff snapshot path content).1 (unchanged _ member)
      rw [recorded, hashesOf, found, Option.bind_some, hashed]
    | none =>
      have absent := (contents.get?_eq_none_iff path).1 found
      have missing : snapshot.files.get? path = none := by
        rw [OrderedMap.get?_eq_none_iff]
        exact fun listed => absent (present path listed)
      simp [Snapshot.hashes, hashesOf, found, missing]
  · intro same
    constructor
    · intro entry member
      obtain ⟨hash, hashed⟩ := hashable entry member
      have found := (contents.get?_eq_some_iff entry.1 entry.2).2 member
      rw [statusHere_eq_unchanged_iff, same]
      have given := Content.hash?_of_fingerprint hashed
      exact ⟨points hash, by rw [hashesOf, found, Option.bind_some, given], given⟩
    · intro path listed
      by_contra absent
      have missing := (contents.get?_eq_none_iff path).2 absent
      have none : snapshot.hashes path = none := by
        rw [same, hashesOf, missing, Option.bind_none]
      rw [Snapshot.hashes, Option.map_eq_none_iff, OrderedMap.get?_eq_none_iff] at none
      exact none listed

/-- The comparison with a snapshot succeeds on contents that can be fingerprinted, and shows no
change exactly when the fingerprints are the same. -/
theorem since_of_hashable (hashable : AreHashable contents) (snapshot : Snapshot) :
    ∃ changes, since contents snapshot = .ok changes ∧
      (changes.hasChanges = false ↔ snapshot.hashes = hashesOf contents) := by
  refine ⟨ofStatuses snapshot.files.keys (contents.mapWithKey (statusHere snapshot.files)), ?_, ?_⟩
  · rw [since, traverse_statusOf hashable]
    rfl
  · rw [hasChanges_ofStatuses_iff, OrderedMap.keys_mapWithKey, ← unchanged_iff_hashes hashable,
      OrderedMap.mapWithKey, List.forall_mem_map]

end Changes

end RepoAtlas
