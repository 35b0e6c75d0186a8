/-
Module: RepoAtlas.Proofs.OrderedMapLaws
Purpose: What lookups, writes and traversals do to the entries of an ordered map.
  A lookup is membership of a pair, because no key occurs twice.  A traversal either changes every
  value or stops at the first entry whose change fails, and both are said in terms of the entries.
  How computations that may fail are put together is said first, and how items are sorted by keys
  that differ is said last.
Main exports: get?_eq_some_iff, get?_eq_none_iff, entries_insert_of_fresh, entries_ofList,
  get?_ofList_eq_some_iff, mem_keys_ofList_iff, get?_mapWithKey, traverse_eq_ok,
  traverse_eq_error_iff, traverse_mapWithKey_congr, get?_eq_of_perm, pairwise_lt_mergeSort
-/
import RepoAtlas.OrderedMap
import Mathlib.Algebra.Ring.Nat
import Mathlib.Data.List.Basic
import Mathlib.Data.List.Induction
import Mathlib.Data.List.Nodup
import Mathlib.Data.String.Basic

namespace RepoAtlas

section Outcomes

variable {ε δ α β : Type} {computed : Except ε α} {value : α} {result : β}

theorem map_eq_ok_iff {change : α → β} :
    computed.map change = .ok result ↔ ∃ value, computed = .ok value ∧ change value = result := by
  cases computed <;> simp [Except.map]

theorem map_eq_error_iff (change : α → β) (computed : Except ε α) (failure : ε) :
    computed.map change = .error failure ↔ computed = .error failure := by
  cases computed <;> simp [Except.map]

theorem mapError_eq_ok_iff {rename : ε → δ} :
    computed.mapError rename = .ok value ↔ computed = .ok value := by
  cases computed <;> simp [Except.mapError]

theorem mapError_eq_error_iff {rename : ε → δ} {failure : δ} :
    computed.mapError rename = .error failure ↔
      ∃ flaw, computed = .error flaw ∧ rename flaw = failure := by
  cases computed <;> simp [Except.mapError]

theorem bind_eq_ok_iff {next : α → Except ε β} :
    computed >>= next = .ok result ↔ ∃ value, computed = .ok value ∧ next value = .ok result := by
  cases computed <;> simp [bind, Except.bind]

theorem bind_eq_error_iff (first : Except ε α) (second : α → Except ε β) (failure : ε) :
    (first >>= second) = .error failure ↔
      first = .error failure ∨ ∃ value, first = .ok value ∧ second value = .error failure := by
  cases first <;> simp [bind, Except.bind]

theorem exists_eq_ok_iff (computed : Except ε α) :
    (∃ value, computed = .ok value) ↔ ¬ ∃ failure, computed = .error failure := by
  cases computed <;> simp

end Outcomes

namespace OrderedMap

variable {κ α β ε : Type}

/-- A map is determined by its entries. -/
theorem eq_of_entries {first second : OrderedMap κ α} (same : first.entries = second.entries) :
    first = second := by
  cases first
  cases second
  cases same
  rfl

section Lookup

variable [DecidableEq κ]

/-- With distinct keys, the first entry with a key is the only one. -/
theorem lookupEntry_eq_some_iff {entries : List (κ × α)}
    (distinct : (entries.map Prod.fst).Nodup) (key : κ) (value : α) :
    lookupEntry key entries = some value ↔ (key, value) ∈ entries := by
  induction entries with
  | nil => simp [lookupEntry]
  | cons entry rest ih =>
    obtain ⟨name, old⟩ := entry
    rw [List.map_cons, List.nodup_cons] at distinct
    by_cases same : name = key
    · subst same
      have absent : (name, value) ∉ rest := by
        intro member
        exact distinct.1 (List.mem_map.2 ⟨(name, value), member, rfl⟩)
      simp [lookupEntry, absent, eq_comm]
    · simp [lookupEntry, same, ih distinct.2, Ne.symm same]

/-- A lookup finds exactly the pairs of the map. -/
theorem get?_eq_some_iff (map : OrderedMap κ α) (key : κ) (value : α) :
    map.get? key = some value ↔ (key, value) ∈ map.entries :=
  lookupEntry_eq_some_iff map.nodup key value

theorem mem_keys_of_get? {map : OrderedMap κ α} {key : κ} {value : α}
    (found : map.get? key = some value) : key ∈ map.keys :=
  List.mem_map_of_mem ((map.get?_eq_some_iff key value).1 found)

/-- A lookup finds nothing exactly at the keys that are not in the map. -/
theorem get?_eq_none_iff (map : OrderedMap κ α) (key : κ) :
    map.get? key = none ↔ key ∉ map.keys := by
  constructor
  · intro missing present
    obtain ⟨⟨name, value⟩, member, rfl⟩ := List.mem_map.1 present
    rw [(map.get?_eq_some_iff name value).2 member] at missing
    cases missing
  · intro absent
    cases found : map.get? key with
    | none => rfl
    | some value =>
      have member := (map.get?_eq_some_iff key value).1 found
      exact absurd (List.mem_map_of_mem member) absent

theorem contains_eq_true_iff (map : OrderedMap κ α) (key : κ) :
    map.contains key = true ↔ key ∈ map.keys := by
  simp [contains, keys]

/-- Two maps with the same entries in any order answer every lookup alike. -/
theorem get?_eq_of_perm {first second : OrderedMap κ α}
    (same : first.entries.Perm second.entries) (key : κ) :
    first.get? key = second.get? key := by
  apply Option.ext
  intro value
  rw [get?_eq_some_iff, get?_eq_some_iff, same.mem_iff]

/-- The entry of a key stands between entries of other keys. -/
theorem entries_split (map : OrderedMap κ α) {key : κ} {value : α}
    (found : map.get? key = some value) :
    ∃ before after, map.entries = before ++ (key, value) :: after ∧
      (∀ entry ∈ before, entry.1 ≠ key) ∧ ∀ entry ∈ after, entry.1 ≠ key := by
  obtain ⟨before, after, split⟩ := List.append_of_mem ((map.get?_eq_some_iff key value).1 found)
  have distinct := map.nodup
  rw [split, List.map_append, List.map_cons, List.nodup_middle, List.nodup_cons,
    List.mem_append, not_or] at distinct
  have apart {part : List (κ × α)} (other : key ∉ part.map Prod.fst) :
      ∀ entry ∈ part, entry.1 ≠ key := by
    intro entry member same
    exact other (same ▸ List.mem_map_of_mem member)
  exact ⟨before, after, split, apart distinct.1.1, apart distinct.1.2⟩

/-- What only one entry of a map gives. -/
theorem flatMap_entries (map : OrderedMap κ α) {key : κ} {value : α}
    (found : map.get? key = some value) (give : κ × α → List β)
    (elsewhere : ∀ entry ∈ map.entries, entry.1 ≠ key → give entry = []) :
    map.entries.flatMap give = give (key, value) := by
  obtain ⟨before, after, split, first, last⟩ := map.entries_split found
  have nothing {part : List (κ × α)} (apart : ∀ entry ∈ part, entry.1 ≠ key)
      (inside : ∀ entry ∈ part, entry ∈ map.entries) : part.flatMap give = [] := by
    apply List.flatMap_eq_nil_iff.2
    intro entry member
    exact elsewhere entry (inside entry member) (apart entry member)
  rw [split, List.flatMap_append, List.flatMap_cons, nothing first (by simp +contextual [split]),
    nothing last (by simp +contextual [split]), List.nil_append, List.append_nil]

/-- What is made of the entries of a map, by its keys and what is found under them. -/
theorem map_entries_eq_map_keys (map : OrderedMap κ α) (give : κ → α → β) (default : α) :
    map.entries.map (fun entry => give entry.1 entry.2) =
      map.keys.map (fun key => give key ((map.get? key).getD default)) := by
  rw [keys, List.map_map]
  apply List.map_congr_left
  intro entry member
  rw [Function.comp_apply, (map.get?_eq_some_iff entry.1 entry.2).2 member, Option.getD_some]

/-- A sum over the entries of a map that only one key contributes to. -/
theorem sum_map_entries (map : OrderedMap κ α) {key : κ} {value : α}
    (found : map.get? key = some value) (weight : κ × α → Nat)
    (elsewhere : ∀ entry ∈ map.entries, entry.1 ≠ key → weight entry = 0) :
    (map.entries.map weight).sum = weight (key, value) := by
  obtain ⟨before, after, split, first, last⟩ := map.entries_split found
  have vanishes {part : List (κ × α)} (apart : ∀ entry ∈ part, entry.1 ≠ key)
      (inside : ∀ entry ∈ part, entry ∈ map.entries) : (part.map weight).sum = 0 := by
    have zero : part.map weight = part.map (fun _ => 0) := by
      apply List.map_congr_left
      intro entry member
      exact elsewhere entry (inside entry member) (apart entry member)
    simp [zero]
  have before := vanishes first (by simp +contextual [split])
  have after := vanishes last (by simp +contextual [split])
  simp [split, before, after]

/-- Writing a new key adds its entry at the end. -/
theorem insertEntry_of_fresh {key : κ} {entries : List (κ × α)}
    (fresh : key ∉ entries.map Prod.fst) (value : α) :
    insertEntry key value entries = entries ++ [(key, value)] := by
  induction entries with
  | nil => rfl
  | cons entry rest ih =>
    obtain ⟨name, old⟩ := entry
    rw [List.map_cons, List.mem_cons, not_or] at fresh
    simp [insertEntry, Ne.symm fresh.1, ih fresh.2]

theorem entries_insert_of_fresh {map : OrderedMap κ α} {key : κ} (fresh : key ∉ map.keys)
    (value : α) : (map.insert key value).entries = map.entries ++ [(key, value)] :=
  insertEntry_of_fresh fresh value

/-- Writing pairs with new and distinct keys adds them at the end in their order. -/
theorem entries_foldl_insert (pairs : List (κ × α)) (map : OrderedMap κ α)
    (distinct : (map.keys ++ pairs.map Prod.fst).Nodup) :
    (pairs.foldl (fun map pair => map.insert pair.1 pair.2) map).entries =
      map.entries ++ pairs := by
  induction pairs generalizing map with
  | nil => simp
  | cons pair rest ih =>
    have fresh : pair.1 ∉ map.keys := by
      intro present
      exact (List.nodup_append.1 distinct).2.2 pair.1 present pair.1 (by simp) rfl
    have grown : (map.insert pair.1 pair.2).keys = map.keys ++ [pair.1] := by
      rw [keys_insert, if_neg fresh]
    rw [List.foldl_cons, ih _ (by rw [grown]; simpa using distinct),
      entries_insert_of_fresh fresh]
    simp

/-- A list of pairs with distinct keys is the list of entries of its map. -/
theorem entries_ofList {pairs : List (κ × α)} (distinct : (pairs.map Prod.fst).Nodup) :
    (ofList pairs).entries = pairs := by
  have all := entries_foldl_insert pairs ({} : OrderedMap κ α) (by simpa [keys] using distinct)
  simpa [ofList] using all

/-- A lookup in the map of a list of pairs finds the last pair with its key. -/
theorem get?_ofList_eq_find? (pairs : List (κ × α)) (key : κ) :
    (ofList pairs).get? key = (pairs.reverse.find? (fun pair => pair.1 = key)).map Prod.snd := by
  induction pairs using List.reverseRecOn with
  | nil => rfl
  | append_singleton pairs last ih =>
    have written : ofList (pairs ++ [last]) = (ofList pairs).insert last.1 last.2 := by
      simp [ofList, List.foldl_append]
    rw [written, get?_insert, List.reverse_append, List.reverse_singleton, List.singleton_append,
      List.find?_cons]
    by_cases same : last.1 = key
    · simp [same]
    · simp [same, ih]

/-- Of several values for a key, the map of a list of pairs has the last one. -/
theorem get?_ofList_eq_some_iff (pairs : List (κ × α)) (key : κ) (value : α) :
    (ofList pairs).get? key = some value ↔
      ∃ before after, pairs = before ++ (key, value) :: after ∧ key ∉ after.map Prod.fst := by
  rw [get?_ofList_eq_find?, Option.map_eq_some_iff]
  constructor
  · rintro ⟨⟨name, given⟩, found, rfl⟩
    obtain ⟨same, later, earlier, split, others⟩ := List.find?_eq_some_iff_append.1 found
    obtain rfl : name = key := of_decide_eq_true same
    refine ⟨earlier.reverse, later.reverse, ?_, ?_⟩
    · have whole := congrArg List.reverse split
      simpa using whole
    · intro member
      obtain ⟨pair, listed, again⟩ := List.mem_map.1 member
      have different := others pair (List.mem_reverse.1 listed)
      simp [again] at different
  · rintro ⟨before, after, rfl, last⟩
    refine ⟨(key, value), List.find?_eq_some_iff_append.2 ⟨decide_eq_true rfl, after.reverse,
      before.reverse, by simp, ?_⟩, rfl⟩
    intro pair listed
    have different : pair.1 ≠ key := by
      rintro rfl
      exact last (List.mem_map_of_mem (List.mem_reverse.1 listed))
    simp [different]

theorem mem_keys_ofList_iff (pairs : List (κ × α)) (key : κ) :
    key ∈ (ofList pairs).keys ↔ key ∈ pairs.map Prod.fst := by
  rw [← not_iff_not, ← get?_eq_none_iff, get?_ofList_eq_find?, Option.map_eq_none_iff,
    List.find?_eq_none, List.mem_map, not_exists]
  simp only [List.mem_reverse, decide_eq_true_eq, not_and]

/-- A key with only one value in a list of pairs has that value in their map. -/
theorem get?_ofList {pairs : List (κ × α)} {key : κ} {value : α} (member : (key, value) ∈ pairs)
    (alone : ∀ pair ∈ pairs, pair.1 = key → pair.2 = value) :
    (ofList pairs).get? key = some value := by
  have present : key ∈ (ofList pairs).keys :=
    (mem_keys_ofList_iff pairs key).2 (List.mem_map_of_mem member)
  cases found : (ofList pairs).get? key with
  | none => exact absurd present ((get?_eq_none_iff _ _).1 found)
  | some given =>
    obtain ⟨before, after, rfl, _⟩ := (get?_ofList_eq_some_iff pairs key given).1 found
    exact congrArg some (alone (key, given) (by simp) rfl)

@[simp] theorem get?_mapWithKey (map : OrderedMap κ α) (change : κ → α → β) (key : κ) :
    (map.mapWithKey change).get? key = (map.get? key).map (change key) := by
  apply Option.ext
  intro value
  rw [get?_eq_some_iff, Option.map_eq_some_iff]
  constructor
  · intro member
    obtain ⟨entry, old, pair⟩ := List.mem_map.1 member
    cases pair
    exact ⟨entry.2, (map.get?_eq_some_iff entry.1 entry.2).2 old, rfl⟩
  · rintro ⟨old, found, rfl⟩
    exact List.mem_map_of_mem (f := fun entry => (entry.1, change entry.1 entry.2))
      ((map.get?_eq_some_iff key old).1 found)

/-- What stands under a name is what stood under the key that has it. -/
theorem get?_renameKeys_eq_some_iff {ι : Type} [DecidableEq ι] (map : OrderedMap κ α)
    {rename : κ → ι} (distinct : Function.Injective rename) (name : ι) (value : α) :
    (map.renameKeys rename distinct).get? name = some value ↔
      ∃ key, rename key = name ∧ map.get? key = some value := by
  simp only [get?_eq_some_iff, renameKeys, List.mem_map]
  constructor
  · rintro ⟨⟨key, given⟩, member, pair⟩
    cases pair
    exact ⟨key, rfl, member⟩
  · rintro ⟨key, rfl, member⟩
    exact ⟨(key, value), member, rfl⟩

@[simp] theorem get?_renameKeys {ι : Type} [DecidableEq ι] (map : OrderedMap κ α) {rename : κ → ι}
    (distinct : Function.Injective rename) (key : κ) :
    (map.renameKeys rename distinct).get? (rename key) = map.get? key := by
  apply Option.ext
  intro value
  rw [get?_renameKeys_eq_some_iff]
  constructor
  · rintro ⟨other, same, found⟩
    exact distinct same ▸ found
  · exact fun found => ⟨key, rfl, found⟩

/-- Changing the values of a list of pairs with distinct keys changes those of its map. -/
theorem ofList_map (map : OrderedMap κ α) (change : κ → α → β) :
    ofList (map.entries.map (fun entry => (entry.1, change entry.1 entry.2))) =
      map.mapWithKey change :=
  eq_of_entries (entries_ofList (map.mapWithKey change).nodup)

end Lookup

section Traversal

/-- A traversal in which every change succeeds is a plain map. -/
theorem traverseEntries_eq_ok {change : κ → α → Except ε β} {result : κ → α → β}
    {entries : List (κ × α)}
    (succeeds : ∀ entry ∈ entries, change entry.1 entry.2 = .ok (result entry.1 entry.2)) :
    traverseEntries change entries =
      .ok (entries.map (fun entry => (entry.1, result entry.1 entry.2))) := by
  induction entries with
  | nil => rfl
  | cons entry rest ih =>
    obtain ⟨key, value⟩ := entry
    have first := succeeds (key, value) (by simp)
    have others := ih (fun entry member => succeeds entry (by simp [member]))
    simp only at first
    simp [traverseEntries, first, others]

/-- A traversal that succeeds has changed every entry. -/
theorem ok_of_traverseEntries {change : κ → α → Except ε β} {entries : List (κ × α)}
    {changed : List (κ × β)} (done : traverseEntries change entries = .ok changed) :
    ∀ entry ∈ entries, ∃ value, change entry.1 entry.2 = .ok value := by
  induction entries generalizing changed with
  | nil => simp
  | cons entry rest ih =>
    obtain ⟨key, value⟩ := entry
    rw [traverseEntries] at done
    rcases first : change key value with failure | new
    · simp [first] at done
    rcases others : traverseEntries change rest with failure | news
    · simp [first, others] at done
    intro other member
    rcases List.mem_cons.1 member with rfl | later
    · exact ⟨new, first⟩
    · exact ih others other later

/-- A traversal fails at its first entry, or else further on. -/
theorem traverseEntries_cons_eq_error_iff (change : κ → α → Except ε β) (key : κ) (value : α)
    (rest : List (κ × α)) (failure : ε) :
    traverseEntries change ((key, value) :: rest) = .error failure ↔
      change key value = .error failure ∨
        (∃ changed, change key value = .ok changed) ∧
          traverseEntries change rest = .error failure := by
  rw [traverseEntries]
  cases change key value with
  | error reason => simp
  | ok changed => cases traverseEntries change rest <;> simp

/-- A traversal fails exactly at the first entry whose change fails, with its failure. -/
theorem traverseEntries_eq_error_iff (change : κ → α → Except ε β) (entries : List (κ × α))
    (failure : ε) :
    traverseEntries change entries = .error failure ↔
      ∃ before key value after, entries = before ++ (key, value) :: after ∧
        (∀ entry ∈ before, ∃ changed, change entry.1 entry.2 = .ok changed) ∧
        change key value = .error failure := by
  induction entries with
  | nil => simp [traverseEntries]
  | cons entry rest ih =>
    obtain ⟨key, value⟩ := entry
    rw [traverseEntries_cons_eq_error_iff, ih]
    constructor
    · rintro (failed | ⟨⟨changed, succeeded⟩, before, name, old, after, rfl, earlier, failed⟩)
      · exact ⟨[], key, value, rest, rfl, by simp, failed⟩
      · refine ⟨(key, value) :: before, name, old, after, rfl, ?_, failed⟩
        intro entry member
        rcases List.mem_cons.1 member with rfl | later
        · exact ⟨changed, succeeded⟩
        · exact earlier entry later
    · rintro ⟨before, name, old, after, split, earlier, failed⟩
      cases before with
      | nil =>
        cases split
        exact .inl failed
      | cons head tail =>
        cases split
        exact .inr ⟨earlier (key, value) (by simp), tail, name, old, after, rfl,
          fun entry member => earlier entry (by simp [member]), failed⟩

/-- A traversal of a map is one of its entries. -/
theorem traverse_of_traverseEntries {change : κ → α → Except ε β} {map : OrderedMap κ α}
    {changed : OrderedMap κ β} (done : traverseEntries change map.entries = .ok changed.entries) :
    map.traverse change = .ok changed := by
  unfold traverse
  split
  · next failure failed =>
    rw [done] at failed
    cases failed
  · next entries other =>
    rw [done] at other
    cases other
    rfl

theorem traverse_eq_ok {change : κ → α → Except ε β} {result : κ → α → β} {map : OrderedMap κ α}
    (succeeds : ∀ entry ∈ map.entries, change entry.1 entry.2 = .ok (result entry.1 entry.2)) :
    map.traverse change = .ok (map.mapWithKey result) :=
  traverse_of_traverseEntries (traverseEntries_eq_ok succeeds)

theorem traverseEntries_map {γ : Type} (first : κ → γ → α) (change : κ → α → Except ε β)
    (entries : List (κ × γ)) :
    traverseEntries change (entries.map (fun entry => (entry.1, first entry.1 entry.2))) =
      traverseEntries (fun key value => change key (first key value)) entries := by
  induction entries with
  | nil => rfl
  | cons entry rest ih =>
    obtain ⟨key, value⟩ := entry
    simp only [List.map_cons, traverseEntries, ih]

/-- A traversal of changed values in which every further change succeeds. -/
theorem traverse_mapWithKey_eq_ok {γ : Type} {first : κ → γ → α} {change : κ → α → Except ε β}
    {result : κ → γ → β} {map : OrderedMap κ γ}
    (succeeds : ∀ entry ∈ map.entries,
      change entry.1 (first entry.1 entry.2) = .ok (result entry.1 entry.2)) :
    (map.mapWithKey first).traverse change = .ok (map.mapWithKey result) := by
  apply traverse_of_traverseEntries
  rw [mapWithKey, traverseEntries_map]
  exact traverseEntries_eq_ok succeeds

theorem traverse_eq_error_iff (change : κ → α → Except ε β) (map : OrderedMap κ α)
    (failure : ε) :
    map.traverse change = .error failure ↔
      traverseEntries change map.entries = .error failure := by
  unfold traverse
  split
  · next reason failed => simp [failed]
  · next entries done => simp [done]

theorem traverse_eq_ok_iff (change : κ → α → Except ε β) (map : OrderedMap κ α)
    (changed : OrderedMap κ β) :
    map.traverse change = .ok changed ↔
      traverseEntries change map.entries = .ok changed.entries := by
  constructor
  · unfold traverse
    split
    · intro done
      cases done
    · next entries traversed =>
      intro done
      cases done
      exact traversed
  · exact traverse_of_traverseEntries

theorem keys_of_traverse {change : κ → α → Except ε β} {map : OrderedMap κ α}
    {changed : OrderedMap κ β} (done : map.traverse change = .ok changed) :
    changed.keys = map.keys :=
  map_fst_of_traverseEntries ((traverse_eq_ok_iff change map changed).1 done)

/-- A traversal sees of the values only what its change makes of them. -/
theorem traverse_mapWithKey_congr {γ : Type} {first second : κ → γ → α}
    {change : κ → α → Except ε β} (map : OrderedMap κ γ)
    (alike : ∀ key value, change key (first key value) = change key (second key value)) :
    (map.mapWithKey first).traverse change = (map.mapWithKey second).traverse change := by
  have same : traverseEntries change (map.mapWithKey first).entries =
      traverseEntries change (map.mapWithKey second).entries := by
    rw [mapWithKey, mapWithKey, traverseEntries_map, traverseEntries_map]
    simp only [alike]
  rcases done : (map.mapWithKey second).traverse change with failure | changed
  · rw [traverse_eq_error_iff] at done ⊢
    rw [same, done]
  · rw [traverse_eq_ok_iff] at done ⊢
    rw [same, done]

theorem ok_of_traverse {change : κ → α → Except ε β} {map : OrderedMap κ α}
    {changed : OrderedMap κ β} (done : map.traverse change = .ok changed) :
    ∀ entry ∈ map.entries, ∃ value, change entry.1 entry.2 = .ok value := by
  unfold traverse at done
  split at done
  · cases done
  · next entries traversed => exact ok_of_traverseEntries traversed

end Traversal

section Sorting

/-- Items sorted by keys that differ stand with their keys in strictly increasing order. -/
theorem pairwise_lt_mergeSort (key : α → String) {items : List α}
    (distinct : (items.map key).Nodup) :
    ((items.mergeSort (fun first second => key first ≤ key second)).map key).Pairwise (· < ·) := by
  let le (first second : α) : Bool := key first ≤ key second
  have transitive : ∀ first second third, le first second → le second third → le first third := by
    intro first second third before after
    exact decide_eq_true (le_trans (of_decide_eq_true before) (of_decide_eq_true after))
  have total : ∀ first second, (le first second || le second first) = true := by
    intro first second
    rcases le_total (key first) (key second) with before | after
    · simp [le, before]
    · simp [le, after]
  have ordered := List.pairwise_mergeSort transitive total items
  have weakly : ((items.mergeSort le).map key).Pairwise (· ≤ ·) :=
    List.pairwise_map.2 (ordered.imp of_decide_eq_true)
  have once : ((items.mergeSort le).map key).Nodup :=
    ((List.mergeSort_perm items le).map key).nodup_iff.2 distinct
  exact (weakly.and once).imp (fun both => lt_of_le_of_ne both.1 both.2)

end Sorting

end OrderedMap

end RepoAtlas
