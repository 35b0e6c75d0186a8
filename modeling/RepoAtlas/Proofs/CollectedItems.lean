/-
Module: RepoAtlas.Proofs.CollectedItems
Purpose: Lists without repetition, and the maps that loops over lists collect.
  A loop that changes the value under the key of each item leaves the distinct keys in order of first
  appearance, each with what its own items make of the default: items with other keys do not matter.
Main exports: pairwise_mergeSort_of_pairwise, pairwise_mergeSort_descending, nodup_eraseDups,
  eraseDups_concat, pairwise_idxOf_eraseDups, eq_of_ordered, flatMap_filter_perm, foldl_addOnce,
  keys_collectInto, getD_get?_collectInto, entries_collectInto, entries_collect,
  entries_collect_append
-/
import RepoAtlas.Proofs.OrderedMapLaws
import Mathlib.Algebra.Ring.Nat
import Mathlib.Data.List.Nodup

namespace RepoAtlas

variable {ι κ α β : Type}

/-! ### Lists without repetition -/

theorem pairwise_idxOf_of_nodup [DecidableEq α] {items : List α} (distinct : items.Nodup) :
    items.Pairwise (fun first second => items.idxOf first < items.idxOf second) := by
  rw [List.pairwise_iff_getElem]
  intro i j iBound jBound before
  rw [distinct.idxOf_getElem i iBound, distinct.idxOf_getElem j jBound]
  exact before

/-- Of two different items of a list, one stands before the other. -/
theorem sublist_or_sublist_of_mem {items : List α} {first second : α} (member : first ∈ items)
    (member' : second ∈ items) (different : first ≠ second) :
    [first, second].Sublist items ∨ [second, first].Sublist items := by
  induction items with
  | nil => cases member
  | cons item rest ih =>
    rcases List.mem_cons.1 member with rfl | later
    · have after := (List.mem_cons.1 member').resolve_left (Ne.symm different)
      exact .inl ((List.singleton_sublist.2 after).cons_cons _)
    · rcases List.mem_cons.1 member' with rfl | later'
      · exact .inr ((List.singleton_sublist.2 later).cons_cons _)
      · exact (ih later later').imp (·.cons _) (·.cons _)

/-- Sorting keeps the order of items that it does not tell apart. -/
theorem pairwise_mergeSort_of_pairwise {le : α → α → Bool} {before : α → α → Prop}
    (transitive : ∀ first second third, le first second → le second third → le first third)
    (total : ∀ first second, (le first second || le second first) = true) {items : List α}
    (distinct : items.Nodup) (ordered : items.Pairwise before) :
    (items.mergeSort le).Pairwise (fun first second =>
      le first second = true ∧ (le second first = true → before first second)) := by
  classical
  have sorted := List.pairwise_mergeSort transitive total items
  have once : (items.mergeSort le).Nodup := (List.mergeSort_perm items le).nodup_iff.2 distinct
  have places {first second : α} (pair : [first, second].Sublist (items.mergeSort le)) :
      (items.mergeSort le).idxOf first < (items.mergeSort le).idxOf second :=
    List.pairwise_iff_forall_sublist.1 (pairwise_idxOf_of_nodup once) pair
  rw [List.pairwise_iff_forall_sublist] at sorted ordered ⊢
  intro first second pair
  refine ⟨sorted pair, fun tied => ?_⟩
  have different : first ≠ second := by
    rintro rfl
    exact Nat.lt_irrefl _ (places pair)
  have member : first ∈ items := List.mem_mergeSort.1 (pair.subset (by simp))
  have member' : second ∈ items := List.mem_mergeSort.1 (pair.subset (by simp))
  rcases sublist_or_sublist_of_mem member member' different with kept | swapped
  · exact ordered kept
  · -- Tied items that stood the other way round would still do so.
    have reversed := List.pair_sublist_mergeSort transitive total tied swapped
    exact absurd (places pair) (Nat.lt_asymm (places reversed))

/-- Sorting by a number, greatest first, keeps the order of items with the same number. -/
theorem pairwise_mergeSort_descending (key : α → Nat) {before : α → α → Prop} {items : List α}
    (distinct : items.Nodup) (ordered : items.Pairwise before) :
    (items.mergeSort (fun first second => key second ≤ key first)).Pairwise (fun first second =>
      key second ≤ key first ∧ (key first = key second → before first second)) := by
  let le (first second : α) : Bool := key second ≤ key first
  have transitive : ∀ first second third, le first second → le second third → le first third := by
    intro first second third before after
    exact decide_eq_true (le_trans (of_decide_eq_true after) (of_decide_eq_true before))
  have total : ∀ first second, (le first second || le second first) = true := by
    intro first second
    rw [Bool.or_eq_true, decide_eq_true_eq, decide_eq_true_eq]
    exact le_total _ _
  apply (pairwise_mergeSort_of_pairwise transitive total distinct ordered).imp
  rintro first second ⟨sorted, ties⟩
  exact ⟨of_decide_eq_true sorted, fun same => ties (decide_eq_true same.le)⟩

/-- The distinct values of a partial function along a list stand in the order in which the list first
gives them. -/
theorem pairwise_findIdx_eraseDups [DecidableEq β] (give : α → Option β) (items : List α) :
    (items.filterMap give).eraseDups.Pairwise (fun first second =>
      items.findIdx (fun item => give item = some first) <
        items.findIdx (fun item => give item = some second)) := by
  induction items generalizing give with
  | nil => simp
  | cons item rest ih =>
    cases given : give item with
    | none =>
      rw [List.filterMap_cons_none given]
      apply (ih give).imp
      intro first second before
      simpa [List.findIdx_cons, given] using before
    | some value =>
      -- The tail is the same list for the function that no longer gives the first value.
      rw [List.filterMap_cons_some given, List.eraseDups_cons, List.filter_filterMap]
      have later : ∀ other ∈ (rest.filterMap
          (fun item => (give item).filter (fun each => !each == value))).eraseDups,
          value ≠ other := by
        intro other member
        obtain ⟨source, _, given'⟩ := List.mem_filterMap.1 (List.mem_eraseDups.1 member)
        obtain ⟨_, kept⟩ := Option.filter_eq_some_iff.1 given'
        intro same
        simp [same] at kept
      have same (other : β) (different : value ≠ other) (item : α) :
          (give item).filter (fun each => !each == value) = some other ↔
            give item = some other := by
        rw [Option.filter_eq_some_iff]
        simp [Ne.symm different]
      apply List.Pairwise.cons
      · intro other member
        simp [List.findIdx_cons, given, later other member]
      · apply (ih _).imp_of_mem
        intro first second listed listed' before
        have apart := later first listed
        have apart' := later second listed'
        simpa [List.findIdx_cons, given, apart, apart', same first apart, same second apart']
          using before

theorem nodup_eraseDups [DecidableEq α] (items : List α) : items.eraseDups.Nodup := by
  have ordered := pairwise_findIdx_eraseDups some items
  rw [List.filterMap_some] at ordered
  apply ordered.imp
  rintro first second before rfl
  exact Nat.lt_irrefl _ before

/-- The distinct items of a list with one more item at the end. -/
theorem eraseDups_concat [DecidableEq α] (items : List α) (item : α) :
    (items ++ [item]).eraseDups =
      if item ∈ items then items.eraseDups else items.eraseDups ++ [item] := by
  rw [List.eraseDups_append]
  split
  · next present =>
    have nothing : [item].removeAll items = [] := by simpa [List.removeAll] using present
    rw [nothing, List.eraseDups_nil, List.append_nil]
  · next absent =>
    have fresh : [item].removeAll items = [item] := by simpa [List.removeAll] using absent
    rw [fresh]
    rfl

theorem eraseDups_sublist [DecidableEq α] (items : List α) : items.eraseDups.Sublist items := by
  induction items using List.reverseRecOn with
  | nil => exact .slnil
  | append_singleton items last ih =>
    rw [eraseDups_concat]
    split
    · exact ih.trans (List.sublist_append_left _ _)
    · exact ih.append_right _

theorem eraseDups_of_nodup [DecidableEq α] {items : List α} (distinct : items.Nodup) :
    items.eraseDups = items := by
  induction items using List.reverseRecOn with
  | nil => rfl
  | append_singleton items last ih =>
    obtain ⟨before, -, apart⟩ := List.nodup_append.1 distinct
    rw [eraseDups_concat, if_neg (fun member => apart last member last (by simp) rfl), ih before]

/-- The distinct items of a list stand in the order in which the list has them first. -/
theorem pairwise_idxOf_eraseDups [DecidableEq α] (items : List α) :
    items.eraseDups.Pairwise (fun first second => items.idxOf first < items.idxOf second) := by
  have ordered := pairwise_findIdx_eraseDups some items
  rw [List.filterMap_some] at ordered
  have place (item : α) :
      items.idxOf item = items.findIdx (fun other => some other = some item) := by
    rw [List.idxOf]
    congr 1
    funext other
    rw [Bool.eq_iff_iff, beq_iff_eq, decide_eq_true_eq, Option.some_inj]
  simpa only [place] using ordered

/-- Lists without repetition that hold the same items in the order of their keys are equal. -/
theorem eq_of_ordered {key : α → Nat} {first second : List α}
    (same : ∀ item, item ∈ first ↔ item ∈ second)
    (ordered : first.Pairwise (fun before after => key before < key after))
    (ordered' : second.Pairwise (fun before after => key before < key after)) :
    first = second := by
  have nodup {items : List α}
      (sorted : items.Pairwise (fun before after => key before < key after)) : items.Nodup := by
    apply sorted.imp
    rintro before _ below rfl
    exact Nat.lt_irrefl _ below
  apply List.Perm.eq_of_pairwise _ ordered ordered'
    ((List.perm_ext_iff_of_nodup (nodup ordered) (nodup ordered')).2 same)
  intro item other _ _ before after
  exact absurd (before.trans after) (Nat.lt_irrefl _)

/-- Sorting items into distinct classes loses none and lists none twice. -/
theorem flatMap_filter_perm [DecidableEq β] {classes : List β} (distinct : classes.Nodup)
    (classOf : α → β) {items : List α} (covered : ∀ item ∈ items, classOf item ∈ classes) :
    (classes.flatMap (fun each => items.filter (fun item => classOf item = each))).Perm items := by
  induction classes generalizing items with
  | nil =>
    have empty : items = [] := List.eq_nil_iff_forall_not_mem.2 (by simpa using covered)
    simp [empty]
  | cons first rest ih =>
    obtain ⟨fresh, distinct⟩ := List.nodup_cons.1 distinct
    have others : ∀ item ∈ items.filter (fun item => !decide (classOf item = first)),
        classOf item ∈ rest := by
      intro item member
      obtain ⟨listed, different⟩ := List.mem_filter.1 member
      have known := covered item listed
      simp_all
    -- An item of a later class is not of the first one, so the filters for those classes agree.
    have same : ∀ each ∈ rest, items.filter (fun item => classOf item = each) =
        (items.filter (fun item => !decide (classOf item = first))).filter
          (fun item => classOf item = each) := by
      intro each member
      rw [List.filter_filter]
      apply List.filter_congr
      intro item _
      by_cases here : classOf item = each
      · have apart : each ≠ first := fun equal => fresh (equal ▸ member)
        simp [here, apart]
      · simp [here]
    rw [List.flatMap_cons, List.flatMap_congr same]
    exact ((ih distinct others).append_left _).trans (List.filter_append_perm _ items)

theorem sum_length_filter_eq [DecidableEq β] {classes : List β} (distinct : classes.Nodup)
    (classOf : α → β) {items : List α} (covered : ∀ item ∈ items, classOf item ∈ classes) :
    (classes.map (fun each => (items.filter (fun item => classOf item = each)).length)).sum =
      items.length := by
  rw [← (flatMap_filter_perm distinct classOf covered).length_eq, List.length_flatMap]

/-- Adding items one by one, each as far as it is not there, leaves the distinct ones. -/
theorem foldl_addOnce [DecidableEq β] (give : α → β) (items : List α) :
    items.foldl (fun done item => addOnce done (give item)) [] = (items.map give).eraseDups := by
  induction items using List.reverseRecOn with
  | nil => rfl
  | append_singleton items last ih =>
    rw [List.foldl_append, ih, List.map_append, List.map_singleton, eraseDups_concat]
    simp only [List.foldl_cons, List.foldl_nil, addOnce, List.mem_eraseDups]

theorem foldl_append_singleton (give : α → β) (items : List α) :
    items.foldl (fun done item => done ++ [give item]) [] = items.map give := by
  rw [List.foldl_append_eq_append, List.nil_append, ← List.flatMap_def, List.map_eq_flatMap]

/-! ### Collecting loops -/

namespace OrderedMap

variable [DecidableEq κ] (start : OrderedMap κ α) (keyOf : ι → κ) (default : α)
  (change : α → ι → α)

/-- The keys of the items are added to those that are there. -/
theorem keys_collectInto (items : List ι) :
    (collectInto start keyOf default change items).keys =
      (start.keys ++ items.map keyOf).eraseDups := by
  induction items using List.reverseRecOn with
  | nil =>
    rw [List.map_nil, List.append_nil, collectInto, List.foldl_nil]
    exact (eraseDups_of_nodup start.nodup).symm
  | append_singleton items last ih =>
    rw [List.map_append, List.map_singleton, ← List.append_assoc, eraseDups_concat, ← ih,
      collectInto, List.foldl_append]
    simp only [List.foldl_cons, List.foldl_nil]
    rw [← collectInto, alter, keys_insert, ih]
    simp only [List.mem_eraseDups]

/-- Under each key stands what its own items make of the value before. -/
theorem getD_get?_collectInto (items : List ι) (key : κ) :
    ((collectInto start keyOf default change items).get? key).getD default =
      (items.filter (fun item => keyOf item = key)).foldl change
        ((start.get? key).getD default) := by
  induction items generalizing start with
  | nil => rfl
  | cons item rest ih =>
    have step : collectInto start keyOf default change (item :: rest) =
        collectInto (start.alter (keyOf item) default (change · item)) keyOf default change rest :=
      rfl
    rw [step, ih, alter, get?_insert]
    by_cases here : keyOf item = key
    · rw [if_pos here, List.filter_cons_of_pos (by simpa using here), List.foldl_cons, here]
      rfl
    · rw [if_neg here, List.filter_cons_of_neg (by simpa using here)]

/-- Under each key that is there from the start. -/
theorem entries_collectInto {items : List ι}
    (known : ∀ item ∈ items, keyOf item ∈ start.keys) :
    (collectInto start keyOf default change items).entries =
      start.keys.map (fun key =>
        (key, (items.filter (fun item => keyOf item = key)).foldl change
          ((start.get? key).getD default))) := by
  have keys : (collectInto start keyOf default change items).keys = start.keys := by
    have nothing : (items.map keyOf).removeAll start.keys = [] := by
      simpa [List.removeAll, List.filter_eq_nil_iff] using known
    rw [keys_collectInto, List.eraseDups_append, nothing, List.eraseDups_nil, List.append_nil]
    exact eraseDups_of_nodup start.nodup
  have entries := (collectInto start keyOf default change items).map_entries_eq_map_keys Prod.mk
    default
  simp only [Prod.mk.eta, List.map_id', keys, getD_get?_collectInto] at entries
  exact entries

/-- What a loop collects from nothing. -/
theorem entries_collect (items : List ι) :
    (collect keyOf default change items).entries =
      (items.map keyOf).eraseDups.map (fun key =>
        (key, (items.filter (fun item => keyOf item = key)).foldl change default)) := by
  have entries := (collect keyOf default change items).map_entries_eq_map_keys Prod.mk default
  simp only [Prod.mk.eta, List.map_id'] at entries
  rw [entries, collect, keys_collectInto]
  simp only [getD_get?_collectInto]
  rfl

/-- Grouping items by their keys. -/
theorem entries_collect_append (give : ι → β) (items : List ι) :
    (collect keyOf [] (fun members item => members ++ [give item]) items).entries =
      (items.map keyOf).eraseDups.map (fun key =>
        (key, (items.filter (fun item => keyOf item = key)).map give)) := by
  simp only [entries_collect, foldl_append_singleton]

end OrderedMap

end RepoAtlas
