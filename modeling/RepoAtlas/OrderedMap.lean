/-
Module: RepoAtlas.OrderedMap
Purpose: Finite maps that remember the order in which their keys first appeared.
  Discovery order is visible in every table, graph and diagram the library prints, so the order is
  part of the value.  Writing an existing key replaces its value and keeps its position.
Main exports: addOnce, OrderedMap, insert, get?, keys, values, ofList, alter, collectInto, collect,
  mapWithKey, renameKeys, traverse, keys_insert, get?_insert
-/

namespace RepoAtlas

/-- Adds an item at the end of a list that does not have it. -/
def addOnce {α : Type} [DecidableEq α] (items : List α) (item : α) : List α :=
  if item ∈ items then items else items ++ [item]

/-- A finite map kept as its entries in order of first insertion.  No key occurs twice. -/
structure OrderedMap (κ : Type) (α : Type) where
  entries : List (κ × α) := []
  nodup : (entries.map Prod.fst).Nodup := by simp

namespace OrderedMap

variable {ι κ α β : Type}

instance : Inhabited (OrderedMap κ α) := ⟨{}⟩

instance [DecidableEq κ] [DecidableEq α] : DecidableEq (OrderedMap κ α) := fun first second =>
  if same : first.entries = second.entries then
    isTrue (by cases first; cases second; cases same; rfl)
  else
    isFalse (fun equal => same (equal ▸ rfl))

/-- The keys in order of first insertion. -/
def keys (map : OrderedMap κ α) : List κ :=
  map.entries.map Prod.fst

/-- The values in the order of their keys. -/
def values (map : OrderedMap κ α) : List α :=
  map.entries.map Prod.snd

/-- The number of keys. -/
def size (map : OrderedMap κ α) : Nat :=
  map.entries.length

section Lookup

variable [DecidableEq κ]

/-- The value of the first entry with the given key. -/
def lookupEntry (key : κ) : List (κ × α) → Option α
  | [] => none
  | (name, value) :: rest => if name = key then some value else lookupEntry key rest

/-- The value stored under a key. -/
def get? (map : OrderedMap κ α) (key : κ) : Option α :=
  lookupEntry key map.entries

/-- Whether a key is present. -/
def contains (map : OrderedMap κ α) (key : κ) : Bool :=
  map.entries.any (fun entry => entry.1 = key)

/-- Replaces the value of the entry with the given key, or adds an entry at the end. -/
def insertEntry (key : κ) (value : α) : List (κ × α) → List (κ × α)
  | [] => [(key, value)]
  | (name, old) :: rest =>
    if name = key then (key, value) :: rest else (name, old) :: insertEntry key value rest

/-- Writing a present key keeps every key where it is; writing a new one adds it at the end. -/
theorem map_fst_insertEntry (key : κ) (value : α) (entries : List (κ × α)) :
    (insertEntry key value entries).map Prod.fst =
      if key ∈ entries.map Prod.fst then entries.map Prod.fst
      else entries.map Prod.fst ++ [key] := by
  induction entries with
  | nil => simp [insertEntry]
  | cons entry rest ih =>
    obtain ⟨name, old⟩ := entry
    by_cases same : name = key
    · simp [insertEntry, same]
    · simp only [insertEntry, same, if_false, List.map_cons, ih, List.mem_cons, Ne.symm same,
        false_or]
      split <;> simp

theorem nodup_insertEntry (key : κ) (value : α) (entries : List (κ × α))
    (distinct : (entries.map Prod.fst).Nodup) :
    ((insertEntry key value entries).map Prod.fst).Nodup := by
  rw [map_fst_insertEntry]
  split
  · exact distinct
  · next fresh =>
    refine List.nodup_append.2 ⟨distinct, by simp, ?_⟩
    intro first member second only
    simp only [List.mem_singleton] at only
    exact fun equal => fresh (only ▸ equal ▸ member)

/-- Writes a key.  A present key keeps its position and takes the new value. -/
def insert (map : OrderedMap κ α) (key : κ) (value : α) : OrderedMap κ α where
  entries := insertEntry key value map.entries
  nodup := nodup_insertEntry key value map.entries map.nodup

/-- Writes the pairs from left to right, so a repeated key has its first position and its last
value. -/
def ofList (pairs : List (κ × α)) : OrderedMap κ α :=
  pairs.foldl (fun map pair => map.insert pair.1 pair.2) {}

/-- Changes the value under a key, starting from a default when the key is new. -/
def alter (map : OrderedMap κ α) (key : κ) (default : α) (change : α → α) : OrderedMap κ α :=
  map.insert key (change ((map.get? key).getD default))

/-- Changes the value under the key of each item, from left to right. -/
def collectInto (start : OrderedMap κ α) (keyOf : ι → κ) (default : α) (change : α → ι → α)
    (items : List ι) : OrderedMap κ α :=
  items.foldl (fun map item => map.alter (keyOf item) default (change · item)) start

/-- What the items with each key make of a default, keys in order of first appearance. -/
def collect (keyOf : ι → κ) (default : α) (change : α → ι → α) (items : List ι) :
    OrderedMap κ α :=
  collectInto {} keyOf default change items

@[simp] theorem keys_insert (map : OrderedMap κ α) (key : κ) (value : α) :
    (map.insert key value).keys = if key ∈ map.keys then map.keys else map.keys ++ [key] :=
  map_fst_insertEntry key value map.entries

theorem lookupEntry_insertEntry (key other : κ) (value : α) (entries : List (κ × α)) :
    lookupEntry other (insertEntry key value entries) =
      if key = other then some value else lookupEntry other entries := by
  induction entries with
  | nil => simp [insertEntry, lookupEntry]
  | cons entry rest ih =>
    obtain ⟨name, old⟩ := entry
    by_cases same : name = key
    · subst same
      by_cases found : name = other <;> simp [insertEntry, lookupEntry, found]
    · by_cases found : name = other
      · subst found
        simp [insertEntry, lookupEntry, same, Ne.symm same]
      · simp [insertEntry, lookupEntry, same, found, ih]

/-- A lookup after a write sees the written key and is otherwise as before. -/
@[simp] theorem get?_insert (map : OrderedMap κ α) (key other : κ) (value : α) :
    (map.insert key value).get? other = if key = other then some value else map.get? other :=
  lookupEntry_insertEntry key other value map.entries

end Lookup

/-- Changes every value, with its key in sight. -/
def mapWithKey (map : OrderedMap κ α) (change : κ → α → β) : OrderedMap κ β where
  entries := map.entries.map (fun entry => (entry.1, change entry.1 entry.2))
  nodup := by
    have same : (map.entries.map (fun entry => (entry.1, change entry.1 entry.2))).map Prod.fst =
        map.entries.map Prod.fst := by
      simp [List.map_map, Function.comp_def]
    rw [same]
    exact map.nodup

/-- Gives every key another name, under which no two keys are the same. -/
def renameKeys (map : OrderedMap κ α) (rename : κ → ι) (distinct : Function.Injective rename) :
    OrderedMap ι α where
  entries := map.entries.map (fun entry => (rename entry.1, entry.2))
  nodup := by
    have same : (map.entries.map (fun entry => (rename entry.1, entry.2))).map Prod.fst =
        (map.entries.map Prod.fst).map rename := by
      simp [List.map_map, Function.comp_def]
    rw [same]
    exact List.Pairwise.map rename (fun _ _ apart same => apart (distinct same)) map.nodup

/-- Changes the values from left to right and stops at the first failure. -/
def traverseEntries {ε : Type} (change : κ → α → Except ε β) :
    List (κ × α) → Except ε (List (κ × β))
  | [] => .ok []
  | (key, value) :: rest =>
    match change key value with
    | .error failure => .error failure
    | .ok changed =>
      match traverseEntries change rest with
      | .error failure => .error failure
      | .ok others => .ok ((key, changed) :: others)

theorem map_fst_of_traverseEntries {ε : Type} {change : κ → α → Except ε β}
    {entries : List (κ × α)} {changed : List (κ × β)}
    (done : traverseEntries change entries = .ok changed) :
    changed.map Prod.fst = entries.map Prod.fst := by
  induction entries generalizing changed with
  | nil => cases done; rfl
  | cons entry rest ih =>
    obtain ⟨key, value⟩ := entry
    unfold traverseEntries at done
    split at done
    · cases done
    · split at done
      · cases done
      · next others step =>
        cases done
        simp [ih step]

/-- Changes every value from left to right, with its key in sight, and stops at the first failure.
The keys stay where they are. -/
def traverse {ε : Type} (map : OrderedMap κ α) (change : κ → α → Except ε β) :
    Except ε (OrderedMap κ β) :=
  match done : traverseEntries change map.entries with
  | .error failure => .error failure
  | .ok entries => .ok ⟨entries, by rw [map_fst_of_traverseEntries done]; exact map.nodup⟩

@[simp] theorem keys_renameKeys (map : OrderedMap κ α) (rename : κ → ι)
    (distinct : Function.Injective rename) :
    (map.renameKeys rename distinct).keys = map.keys.map rename := by
  simp [keys, renameKeys, Function.comp_def]

@[simp] theorem keys_mapWithKey (map : OrderedMap κ α) (change : κ → α → β) :
    (map.mapWithKey change).keys = map.keys := by
  simp [keys, mapWithKey, Function.comp_def]

end OrderedMap

end RepoAtlas
