/-
Module: RepoAtlas.Proofs.AddedFile
Purpose: A file that is added changes the import graph only around itself.
  A specifier that does not mean the new file means what it meant before, because the candidates of a
  specifier are tried in a fixed order and only one of them has become known.  So an edge between old
  files can vanish only in favour of one to the new file, and none can appear.
Main exports: OrderedMap.insertAt, resolve_of_grown, edgesBetween, AddsLocally, isImport_insertAt,
  unresolved_insertAt_sublist, resolve_of_no_longer_unresolved, Overlooks,
  edgesBetween_edges_insertAt, addsLocally_insertAt
-/
import RepoAtlas.Proofs.ImportGraph

namespace RepoAtlas

namespace OrderedMap

variable {κ α : Type} {map : OrderedMap κ α} {key : κ}

/-- The map with a new entry before the given position, or at the end if there is no such position. -/
def insertAt (map : OrderedMap κ α) (position : Nat) {key : κ} (fresh : key ∉ map.keys) (value : α) :
    OrderedMap κ α where
  entries := map.entries.take position ++ (key, value) :: map.entries.drop position
  nodup := by
    rw [List.map_append, List.map_cons, List.nodup_middle, ← List.map_append,
      List.take_append_drop]
    exact List.nodup_cons.2 ⟨fresh, map.nodup⟩

theorem mem_entries_insertAt (position : Nat) (fresh : key ∉ map.keys) (value : α)
    (entry : κ × α) :
    entry ∈ (map.insertAt position fresh value).entries ↔
      entry = (key, value) ∨ entry ∈ map.entries := by
  rw [insertAt, List.mem_append, List.mem_cons, or_left_comm, ← List.mem_append,
    List.take_append_drop]

theorem mem_keys_insertAt (position : Nat) (fresh : key ∉ map.keys) (value : α) (other : κ) :
    other ∈ (map.insertAt position fresh value).keys ↔ other = key ∨ other ∈ map.keys := by
  simp only [keys, List.mem_map, mem_entries_insertAt, or_and_right, exists_or, exists_eq_left]
  rw [eq_comm]

theorem get?_insertAt_of_mem [DecidableEq κ] (position : Nat) (fresh : key ∉ map.keys) (value : α)
    {other : κ} (old : other ∈ map.keys) :
    (map.insertAt position fresh value).get? other = map.get? other := by
  apply Option.ext
  intro found
  rw [get?_eq_some_iff, get?_eq_some_iff, mem_entries_insertAt]
  apply or_iff_right
  intro same
  cases same
  exact fresh old

end OrderedMap

namespace Imports

/-! ### Resolution -/

/-- If one more item passes a test, the first that passes is that item or the same as before. -/
theorem find?_of_grown {α : Type} {test test' : α → Bool} {new : α}
    (grown : ∀ item, test' item = true ↔ item = new ∨ test item = true) (items : List α) :
    items.find? test' = some new ∨ items.find? test' = items.find? test := by
  induction items with
  | nil => exact .inr rfl
  | cons item rest ih =>
    by_cases here : item = new
    · left
      rw [here, List.find?_cons_of_pos ((grown new).2 (.inl rfl))]
    · have same : test' item = test item := by
        rw [Bool.eq_iff_iff, grown, or_iff_right here]
      rw [List.find?_cons, List.find?_cons, same]
      cases test item with
      | true => exact .inr rfl
      | false => exact ih

/-- Once a further file is known, a specifier means that file or what it meant before. -/
theorem resolve_of_grown {known known' : List String} {path : String}
    (grown : ∀ other, other ∈ known' ↔ other = path ∨ other ∈ known)
    (specifier importer : String) :
    resolve specifier importer known' = some path ∨
      resolve specifier importer known' = resolve specifier importer known := by
  unfold resolve
  split
  · simp only
    split
    · exact .inr rfl
    · apply find?_of_grown
      intro candidate
      rw [List.contains_iff_mem, List.contains_iff_mem, grown]
  · exact .inr rfl

/-! ### What adding a file does -/

/-- The edges with both ends among the given files. -/
def edgesBetween (known : List String) (edges : List Edge) : List Edge :=
  edges.filter (fun edge => edge.source ∈ known ∧ edge.target ∈ known)

/-- Whether the graph of the files that have grown by a path differs from the old graph only around
that path.  Between old files no edge appears, and where one vanishes there is one to the new file
instead.  Every old file is left with some of its unresolved specifiers, and the others mean the new
file.  Any further edge comes from the new file.  If no specifier of an old file means the new one,
then the edges between the old files and all their unresolved specifiers are as they were. -/
structure AddsLocally (files grown : FileMap) (path : String) : Prop where
  edge_before : ∀ source ∈ files.keys, ∀ target ∈ files.keys,
    ⟨source, target⟩ ∈ (build grown).edges → ⟨source, target⟩ ∈ (build files).edges
  edge_redirected : ∀ edge ∈ (build files).edges, edge ∉ (build grown).edges →
    ⟨edge.source, path⟩ ∈ (build grown).edges
  unresolved_before : ∀ source ∈ files.keys, ∃ before after,
    (build files).nodes.get? source = some before ∧
    (build grown).nodes.get? source = some after ∧
    after.unresolved.Sublist before.unresolved ∧
    ∀ specifier ∈ before.unresolved, specifier ∉ after.unresolved →
      resolve specifier source grown.keys = some path
  other_edges : ∀ edge ∈ (build grown).edges,
    (edge.source ∈ files.keys ∧ (edge.target ∈ files.keys ∨ edge.target = path)) ∨
      edge.source = path
  unaffected : (∀ source outline, files.get? source = some (some outline) →
      ∀ specifier ∈ outline.imports, resolve specifier source grown.keys ≠ some path) →
    edgesBetween files.keys (build grown).edges = (build files).edges ∧
    ∀ source ∈ files.keys, ∃ before after,
      (build files).nodes.get? source = some before ∧
      (build grown).nodes.get? source = some after ∧ after.unresolved = before.unresolved

section Insertion

variable {files : FileMap} {path : String} (position : Nat) (fresh : path ∉ files.keys)
  (added : Option Outline)

theorem resolve_insertAt (specifier importer : String) :
    resolve specifier importer (files.insertAt position fresh added).keys = some path ∨
      resolve specifier importer (files.insertAt position fresh added).keys =
        resolve specifier importer files.keys :=
  resolve_of_grown (files.mem_keys_insertAt position fresh added) specifier importer

/-- An import between old files was one before. -/
theorem isImport_of_isImport_insertAt {source target : String} (old : source ∈ files.keys)
    (old' : target ∈ files.keys)
    (imported : IsImport (files.insertAt position fresh added) source target) :
    IsImport files source target := by
  obtain ⟨outline, found, different, specifier, listed, resolved⟩ := imported
  rw [OrderedMap.get?_insertAt_of_mem position fresh added old] at found
  refine ⟨outline, found, different, specifier, listed, ?_⟩
  rcases resolve_insertAt position fresh added specifier source with new | same
  · cases new.symm.trans resolved
    exact absurd old' fresh
  · rw [← same, resolved]

/-- An import between old files stays one, or its source imports the new file. -/
theorem isImport_insertAt {source target : String} (imported : IsImport files source target) :
    IsImport (files.insertAt position fresh added) source target ∨
      IsImport (files.insertAt position fresh added) source path := by
  obtain ⟨outline, found, different, specifier, listed, resolved⟩ := imported
  have old : source ∈ files.keys :=
    List.mem_map_of_mem (f := Prod.fst) ((files.get?_eq_some_iff _ _).1 found)
  rw [← OrderedMap.get?_insertAt_of_mem position fresh added old] at found
  rcases resolve_insertAt position fresh added specifier source with new | same
  · have apart : source ≠ path := fun equal => fresh (equal ▸ old)
    exact .inr ⟨outline, found, apart, specifier, listed, new⟩
  · exact .inl ⟨outline, found, different, specifier, listed, same.trans resolved⟩

/-! ### Unresolved specifiers -/

/-- What is still unresolved was unresolved before. -/
theorem unresolved_insertAt_sublist (source : String) (outline : Option Outline) :
    (unresolved (files.insertAt position fresh added).keys source outline).Sublist
      (unresolved files.keys source outline) := by
  apply List.monotone_filter_right
  intro specifier still
  rw [Bool.and_eq_true, Option.isNone_iff_eq_none] at still ⊢
  refine ⟨still.1, ?_⟩
  rcases resolve_insertAt position fresh added specifier source with new | same
  · cases new.symm.trans still.2
  · rw [← same, still.2]

/-- What is no longer unresolved means the new file. -/
theorem resolve_of_no_longer_unresolved {source specifier : String} {outline : Option Outline}
    (before : specifier ∈ unresolved files.keys source outline)
    (after : specifier ∉ unresolved (files.insertAt position fresh added).keys source outline) :
    resolve specifier source (files.insertAt position fresh added).keys = some path := by
  obtain ⟨listed, missed⟩ := List.mem_filter.1 before
  rw [Bool.and_eq_true, Option.isNone_iff_eq_none] at missed
  apply (resolve_insertAt position fresh added specifier source).resolve_right
  intro same
  apply after
  exact List.mem_filter.2 ⟨listed, by simp [missed.1, same, missed.2]⟩

/-- The node of an old file before and after the addition. -/
theorem exists_nodes_insertAt {source : String} (old : source ∈ files.keys) :
    ∃ outline, files.get? source = some outline ∧
      (build files).nodes.get? source = some (nodeHere files source outline) ∧
      (build (files.insertAt position fresh added)).nodes.get? source =
        some (nodeHere (files.insertAt position fresh added) source outline) := by
  obtain ⟨⟨name, outline⟩, listed, rfl⟩ := List.mem_map.1 old
  have found := (files.get?_eq_some_iff name outline).2 listed
  refine ⟨outline, found, ?_, ?_⟩
  · rw [get?_build_nodes, found, Option.map_some]
  · rw [get?_build_nodes, OrderedMap.get?_insertAt_of_mem position fresh added old, found,
      Option.map_some]

/-! ### Files that are not affected -/

/-- Whether no specifier of a file means the new one. -/
def Overlooks (source : String) (outline : Option Outline) : Prop :=
  ∀ specifier ∈ specifiers outline,
    resolve specifier source (files.insertAt position fresh added).keys ≠ some path

variable {position fresh added} {source : String} {outline : Option Outline}

theorem Overlooks.resolve_eq (overlooks : Overlooks position fresh added source outline) :
    ∀ specifier ∈ specifiers outline,
      resolve specifier source (files.insertAt position fresh added).keys =
        resolve specifier source files.keys := by
  intro specifier listed
  exact (resolve_insertAt position fresh added specifier source).resolve_left
    (overlooks specifier listed)

theorem Overlooks.targets_eq (overlooks : Overlooks position fresh added source outline) :
    targets (files.insertAt position fresh added).keys source outline =
      targets files.keys source outline := by
  rw [targets, targets, List.filterMap_congr overlooks.resolve_eq]

theorem Overlooks.unresolved_eq (overlooks : Overlooks position fresh added source outline) :
    unresolved (files.insertAt position fresh added).keys source outline =
      unresolved files.keys source outline := by
  apply List.filter_congr
  intro specifier listed
  rw [overlooks.resolve_eq specifier listed]

/-- If no old file sees the new one, the edges between old files are the old edges in their order. -/
theorem edgesBetween_edges_insertAt
    (overlooked : ∀ entry ∈ files.entries, Overlooks position fresh added entry.1 entry.2) :
    edgesBetween files.keys (edges (files.insertAt position fresh added)) = edges files := by
  let between (edge : Edge) : Bool := edge.source ∈ files.keys ∧ edge.target ∈ files.keys
  let known := (files.insertAt position fresh added).keys
  -- The old files have their old edges, and those of the new file start outside.
  have old : ∀ entry ∈ files.entries,
      ((targets known entry.1 entry.2).map (Edge.mk entry.1)).filter between =
        (targets files.keys entry.1 entry.2).map (Edge.mk entry.1) := by
    intro entry listed
    rw [(overlooked entry listed).targets_eq, List.filter_eq_self]
    intro edge member
    have whole : edge ∈ edges files := by
      rw [edges_eq]
      exact List.mem_flatMap.2 ⟨entry, listed, member⟩
    exact decide_eq_true (mem_keys_of_mem_edges whole)
  have new : ((targets known path added).map (Edge.mk path)).filter between = [] := by
    rw [List.filter_eq_nil_iff]
    intro edge member
    obtain ⟨target, _, rfl⟩ := List.mem_map.1 member
    simp [between, fresh]
  have grown : edgesBetween files.keys (edges (files.insertAt position fresh added)) =
      (files.insertAt position fresh added).entries.flatMap (fun entry =>
        ((targets known entry.1 entry.2).map (Edge.mk entry.1)).filter between) := by
    rw [edges_eq]
    exact List.filter_flatMap ..
  rw [grown, OrderedMap.insertAt, List.flatMap_append, List.flatMap_cons, new, List.nil_append,
    ← List.flatMap_append, List.take_append_drop, List.flatMap_congr old, edges_eq]

end Insertion

/-- A file that is added at any position changes the import graph only around itself. -/
theorem addsLocally_insertAt (files : FileMap) (position : Nat) {path : String}
    (fresh : path ∉ files.keys) (added : Option Outline) :
    AddsLocally files (files.insertAt position fresh added) path where
  edge_before := by
    intro source old target old' member
    have imported := (mem_edges_iff source target).1 member
    exact (mem_edges_iff source target).2
      (isImport_of_isImport_insertAt position fresh added old old' imported)
  edge_redirected := by
    intro edge member gone
    have imported := (mem_edges_iff edge.source edge.target).1 member
    rcases isImport_insertAt position fresh added imported with still | redirected
    · exact absurd ((mem_edges_iff edge.source edge.target).2 still) gone
    · exact (mem_edges_iff edge.source path).2 redirected
  unresolved_before := by
    intro source old
    obtain ⟨outline, -, before, after⟩ := exists_nodes_insertAt position fresh added old
    refine ⟨_, _, before, after, unresolved_insertAt_sublist position fresh added source outline, ?_⟩
    intro specifier missed resolved
    exact resolve_of_no_longer_unresolved position fresh added missed resolved
  other_edges := by
    intro edge member
    obtain ⟨source, target⟩ := mem_keys_of_mem_edges member
    rw [OrderedMap.mem_keys_insertAt] at source target
    rcases source with new | old
    · exact .inr new
    · exact .inl ⟨old, target.symm⟩
  unaffected := by
    intro unseen
    have overlooked : ∀ entry ∈ files.entries, Overlooks position fresh added entry.1 entry.2 := by
      rintro ⟨source, outline⟩ listed
      have found := (files.get?_eq_some_iff source outline).2 listed
      cases outline with
      | none => exact fun specifier none => nomatch none
      | some outline => exact unseen source outline found
    refine ⟨edgesBetween_edges_insertAt overlooked, ?_⟩
    intro source old
    obtain ⟨outline, found, before, after⟩ := exists_nodes_insertAt position fresh added old
    have listed := (files.get?_eq_some_iff source outline).1 found
    exact ⟨_, _, before, after, (overlooked _ listed).unresolved_eq⟩

/-- A file that imports a sibling, and a name that stands for no file yet. -/
def importingFiles : FileMap where
  entries := [("lib/a.py", some { language := "python", imports := ["./b", "./c"] }),
    ("lib/b.py", none)]
  nodup := by decide

theorem fresh_importingFiles : "lib/b.ts" ∉ importingFiles.keys := by decide

/-- A file that is tried before the sibling takes its place as a target. -/
theorem addsLocally_importingFiles :
    let grown := importingFiles.insertAt 0 fresh_importingFiles none
    "lib/b.ts" ∉ importingFiles.keys ∧ AddsLocally importingFiles grown "lib/b.ts" ∧
      ⟨"lib/a.py", "lib/b.py"⟩ ∈ (build importingFiles).edges ∧
      ⟨"lib/a.py", "lib/b.ts"⟩ ∈ (build grown).edges := by
  intro grown
  have locally : AddsLocally importingFiles grown "lib/b.ts" :=
    addsLocally_insertAt importingFiles 0 fresh_importingFiles none
  have before : ⟨"lib/a.py", "lib/b.py"⟩ ∈ (build importingFiles).edges := by decide
  have gone : ⟨"lib/a.py", "lib/b.py"⟩ ∉ (build grown).edges := by decide
  exact ⟨fresh_importingFiles, locally, before, locally.edge_redirected _ before gone⟩

end Imports

end RepoAtlas
