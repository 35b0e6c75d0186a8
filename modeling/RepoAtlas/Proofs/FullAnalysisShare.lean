/-
Module: RepoAtlas.Proofs.FullAnalysisShare
Purpose: A full analysis is asked for exactly above three tenths.
  The share of changed files is a rounded quotient and the bound is the double nearest to three
  tenths, which lies a little below it.  A share of exactly three tenths rounds to the bound itself.
  The next greater share of fewer than `2 ^ 50` files is further away than the next double, so
  comparing the doubles is comparing the counts.
Main exports: exceedsShare_iff, asksForFullAnalysis_iff, length_changed_since,
  needsFullAnalysis_iff_counts
-/
import RepoAtlas.Proofs.ContentDifferences
import RepoAtlas.Proofs.RoundedRatios

namespace RepoAtlas.Changes

open Number Binary64 Text.Utf8

/-! ### The bound and the double after it -/

/-- The mantissa of the double after the bound, at the exponent of the bound. -/
def nextMantissa : Nat := 5404319552844596

/-- The bound lies below the next double, which is reached by its own quotient. -/
theorem fullAnalysisShare_lt_next :
    fullAnalysisShare < (ofRatio false nextMantissa (powerOfTwo 54)).toRat := by
  decide +kernel

/-- A quotient of few files that is greater than three tenths is no less than the next double. -/
theorem next_le_of_exceeds {count total : Nat} (few : total ≤ 2 ^ 51)
    (exceeds : 3 * total < 10 * count) :
    nextMantissa * total ≤ count * powerOfTwo 54 := by
  have power : powerOfTwo 54 = 2 ^ 54 := rfl
  rw [power, nextMantissa]
  omega

/-- The rounded share of changed files exceeds the bound exactly when the share exceeds three
tenths. -/
theorem exceedsShare_iff {count total : Nat} (positive : 0 < total) (few : total ≤ 2 ^ 51)
    (bounded : count < 2 ^ 51) :
    fullAnalysisShare < (ofRatio false count total).toRat ↔ 3 * total < 10 * count := by
  have above : (0 : ℚ) < total := by exact_mod_cast positive
  constructor
  · intro exceeds
    by_contra within
    have ordered : (count : ℚ) / total ≤ ((3 : Nat) : ℚ) / (10 : Nat) := by
      rw [div_le_div_iff₀ above (by norm_num)]
      exact_mod_cast (by omega : count * 10 ≤ 3 * total)
    have small : (((3 : Nat) : ℚ) / (10 : Nat)) < 2 ^ (1023 : Int) :=
      lt_of_lt_of_le (by norm_num) (one_le_zpow₀ (by norm_num) (by norm_num))
    exact absurd exceeds (not_lt.2 (toRat_ofRatio_mono positive (by norm_num) ordered
      (small.trans zpow_lt_infiniteFrom)))
  · intro exceeds
    have ordered : (nextMantissa : ℚ) / (powerOfTwo 54 : Nat) ≤ (count : ℚ) / total := by
      rw [div_le_div_iff₀ (by exact_mod_cast powerOfTwo_pos 54) above]
      exact_mod_cast next_le_of_exceeds few exceeds
    have small : (count : ℚ) / total < 2 ^ (1023 : Int) := by
      have whole : (1 : ℚ) ≤ total := by exact_mod_cast positive
      calc (count : ℚ) / total ≤ count := div_le_self (Nat.cast_nonneg count) whole
        _ < 2 ^ (51 : Int) := by exact_mod_cast bounded
        _ ≤ 2 ^ (1023 : Int) := zpow_le_zpow_right₀ (by norm_num) (by norm_num)
    exact fullAnalysisShare_lt_next.trans_le
      (toRat_ofRatio_mono (powerOfTwo_pos 54) positive ordered
        (small.trans zpow_lt_infiniteFrom))

/-! ### The rule -/

/-- The rule in counts.  Without any present file every change asks for a full analysis, and without
a change nothing does; both are cases of the same inequality. -/
theorem asksForFullAnalysis_iff {changed : List Points} {total : Nat} (few : total ≤ 2 ^ 51)
    (bounded : changed.length < 2 ^ 51) :
    asksForFullAnalysis changed total = true ↔
      (∃ path ∈ changed, ∃ name ∈ manifestFiles, lastName path = points name) ∨
        3 * total < 10 * changed.length := by
  have manifests : changed.any isManifest = true ↔
      ∃ path ∈ changed, ∃ name ∈ manifestFiles, lastName path = points name := by
    simp [isManifest]
  rw [← manifests]
  unfold asksForFullAnalysis
  by_cases manifest : changed.any isManifest = true
  · simp [manifest]
  · rw [if_neg manifest]
    simp only [manifest, Bool.false_eq_true, false_or]
    rcases Nat.eq_zero_or_pos changed.length with none | some
    · simp [List.length_eq_zero_iff.1 none]
    · have filled : changed.isEmpty = false := by
        simpa [List.isEmpty_eq_false_iff, ← List.length_pos_iff] using some
      simp only [filled, Bool.false_eq_true, if_false]
      rcases Nat.eq_zero_or_pos total with rfl | positive
      · simpa using some
      · rw [if_neg (Nat.ne_of_gt positive), decide_eq_true_eq]
        exact exceedsShare_iff positive few bounded

theorem needsFullAnalysis_ofStatuses (recorded : List Points)
    (statuses : OrderedMap Points Status) :
    (ofStatuses recorded statuses).needsFullAnalysis =
      asksForFullAnalysis (ofStatuses recorded statuses).changed statuses.size :=
  rfl

/-- Every changed path is a present or a recorded one, and none is counted twice. -/
theorem length_changed_ofStatuses (recorded : List Points) (statuses : OrderedMap Points Status) :
    (ofStatuses recorded statuses).changed.length ≤ statuses.size + recorded.length := by
  have present := (pathsWith_perm_keys statuses).length_eq
  have deleted := List.length_filter_le (fun path => !statuses.contains path) recorded
  simp only [List.length_append, OrderedMap.keys, List.length_map] at present
  simp only [changed, ofStatuses, List.length_append, OrderedMap.size]
  omega

section Comparison

variable {contents : OrderedMap Points Content} {previous : Snapshot}

theorem detect_of_compatible (compatible : previous.isCompatible = true) :
    detect contents (some previous) = since contents previous := by
  have comparable : (some previous).filter Snapshot.isCompatible = some previous := by
    simp [compatible]
  rw [detect, comparable]

/-- What is detected is read off one status for each present file. -/
theorem ofStatuses_of_detect (compatible : previous.isCompatible = true) {changes : Changes}
    (detected : detect contents (some previous) = .ok changes) :
    ∃ statuses : OrderedMap Points Status, statuses.size = contents.size ∧
      changes = ofStatuses previous.files.keys statuses := by
  rw [detect_of_compatible compatible] at detected
  obtain ⟨statuses, traversed, rfl⟩ := map_eq_ok_iff.1 detected
  have keys := congrArg List.length (OrderedMap.keys_of_traverse traversed)
  simp only [OrderedMap.keys, List.length_map] at keys
  exact ⟨statuses, keys, rfl⟩

theorem detect_of_areHashable (compatible : previous.isCompatible = true)
    (hashable : AreHashable contents) :
    detect contents (some previous) =
      .ok (ofStatuses previous.files.keys (contents.mapWithKey (statusHere previous.files))) := by
  rw [detect_of_compatible compatible, since, traverse_statusOf hashable]
  rfl

end Comparison

/-- With a compatible snapshot and fewer than `2 ^ 50` files on either side, a full analysis is asked
for exactly when a manifest is among the added, modified and deleted paths, or when these are more
than three tenths of the present files.  A comparison of contents that can be fingerprinted
succeeds. -/
theorem needsFullAnalysis_iff_counts {contents : OrderedMap Points Content} {previous : Snapshot}
    (compatible : previous.isCompatible = true) (present : contents.size < 2 ^ 50)
    (recorded : previous.files.size < 2 ^ 50) :
    (AreHashable contents → ∃ changes, detect contents (some previous) = .ok changes) ∧
    ∀ changes, detect contents (some previous) = .ok changes →
      (changes.needsFullAnalysis = true ↔
        (∃ path ∈ changes.added ++ changes.modified ++ changes.deleted,
          ∃ name ∈ manifestFiles, lastName path = points name) ∨
        10 * (changes.added.length + changes.modified.length + changes.deleted.length) >
          3 * contents.size) := by
  refine ⟨fun hashable => ⟨_, detect_of_areHashable compatible hashable⟩, ?_⟩
  intro changes detected
  obtain ⟨statuses, size, rfl⟩ := ofStatuses_of_detect compatible detected
  have counted := length_changed_ofStatuses previous.files.keys statuses
  have listed : previous.files.keys.length = previous.files.size := List.length_map _
  have few : (ofStatuses previous.files.keys statuses).changed.length < 2 ^ 51 := by omega
  have rule := asksForFullAnalysis_iff (show statuses.size ≤ 2 ^ 51 by omega) few
  rw [needsFullAnalysis_ofStatuses, rule, size, changed, List.length_append, List.length_append]

/-- Ten files of which three are new, among seven that are as recorded. -/
def tenFiles : OrderedMap Points Content where
  entries := ["a.py", "b.py", "c.py", "d.py", "e.py", "f.py", "g.py", "x.py", "y.py", "z.py"].map
    (fun path : String => (path, .raw []))
  nodup := by decide

/-- A snapshot of the first seven of them. -/
def sevenRecorded : Snapshot where
  version := 1
  commit := "c1"
  files := {
    entries := ["a.py", "b.py", "c.py", "d.py", "e.py", "f.py", "g.py"].map
      (fun path : String => (path, ⟨"e3b0c44298fc1c14", .integer 5, 0⟩))
    nodup := by decide }

/-- Exactly three tenths ask for nothing, although the bound is smaller than three tenths. -/
theorem needsFullAnalysis_tenFiles :
    sevenRecorded.isCompatible = true ∧ tenFiles.size < 2 ^ 50 ∧
      sevenRecorded.files.size < 2 ^ 50 ∧ fullAnalysisShare < 3 / 10 ∧
      ∃ changes, detect tenFiles (some sevenRecorded) = .ok changes ∧
        changes.added = ["x.py", "y.py", "z.py"].map points ∧
        changes.needsFullAnalysis = false := by
  have hashable : AreHashable tenFiles := by
    intro entry member
    obtain ⟨_, _, rfl⟩ := List.mem_map.1 member
    exact ⟨_, rfl⟩
  have compatible : sevenRecorded.isCompatible = true := rfl
  have detected := detect_of_areHashable compatible hashable
  have present : tenFiles.size < 2 ^ 50 := by decide
  have recorded : sevenRecorded.files.size < 2 ^ 50 := by decide
  have counts := (needsFullAnalysis_iff_counts compatible present recorded).2 _ detected
  refine ⟨compatible, present, recorded, by decide +kernel, _, detected, by decide +kernel, ?_⟩
  rw [Bool.eq_false_iff, ne_eq, counts]
  decide +kernel

end RepoAtlas.Changes
