/-
Module: RepoAtlas.Proofs.EntityGroups
Purpose: How the entities of a skeleton share out the ranked files.
  Grouping asks each path for its first segment and sorts the groups by size.  No file is lost or
  listed twice, and the order of the ranking shows both inside an entity and between entities of one
  size.
  Which files an entity holds is said by the text of their paths alone: a directory named like the
  entity of the files outside every directory is joined with them.
Main exports: LeadsThrough, IsForeign, IsTopLevel, LiesUnder, mem_dropLast_split_iff,
  isExcluded_iff, entityNamed, entitiesOf_eq, mem_entitiesOf_iff, pairwise_entitiesOf, IsPartition,
  isPartition_entitiesOf, mem_files_iff, shares_entity_iff
-/
import RepoAtlas.Skeleton.Entities
import RepoAtlas.Proofs.DirectoryRoutes
import RepoAtlas.Proofs.ImportGraph

namespace RepoAtlas

namespace Text

/-- The parts before the last one stand between separators, or at the beginning before one. -/
theorem mem_dropLast_split_iff {separator : Char} {chars part : List Char} :
    part ∈ (split separator chars).dropLast ↔ separator ∉ part ∧
      ∃ before after, chars = before ++ part ++ separator :: after ∧
        (before = [] ∨ ∃ above, before = above ++ [separator]) := by
  constructor
  · intro member
    obtain ⟨parts, last, whole⟩ :=
      (List.eq_nil_or_concat' _).resolve_left (split_ne_nil separator chars)
    rw [whole, List.dropLast_concat] at member
    refine ⟨not_mem_of_mem_split (by rw [whole]; exact List.mem_append_left _ member), ?_⟩
    obtain ⟨front, back, rfl⟩ := List.append_of_mem member
    have joined := intercalate_split separator chars
    rw [whole, List.append_assoc, intercalate_append _ front (by simp), List.cons_append,
      List.intercalate_cons_of_ne_nil (by simp)] at joined
    refine ⟨(front.map (· ++ [separator])).flatten,
      List.intercalate [separator] (back ++ [last]), ?_, ?_⟩
    · rw [← joined]
      simp only [List.append_assoc, List.singleton_append]
    · cases front with
      | nil => exact .inl rfl
      | cons first others =>
        exact .inr ⟨_, flatten_map_append [separator] (List.cons_ne_nil first others)⟩
  · rintro ⟨plain, before, after, rfl, rfl | ⟨above, rfl⟩⟩
    · rw [List.nil_append, split_append plain,
        List.dropLast_cons_of_ne_nil (split_ne_nil separator after)]
      exact List.mem_cons_self
    · rw [List.append_assoc, List.append_assoc, List.singleton_append, split_append_separator,
        split_append plain, List.dropLast_append_of_ne_nil (List.cons_ne_nil _ _),
        List.dropLast_cons_of_ne_nil (split_ne_nil separator after)]
      exact List.mem_append_right _ List.mem_cons_self

end Text

namespace Skeleton

open Ranking Text

/-! ### Directories on a path -/

/-- Whether a directory of the given name is on the way along a path. -/
def LeadsThrough (directory path : String) : Prop :=
  ∃ before after, path = before ++ directory ++ "/" ++ after ∧
    (before = "" ∨ ∃ above, before = above ++ "/")

/-- Whether a directory on the path holds generated or foreign code. -/
def IsForeign (path : String) : Prop :=
  ∃ directory ∈ excludedDirectories, LeadsThrough directory path

/-- Whether a file is outside every directory. -/
def IsTopLevel (path : String) : Prop :=
  '/' ∉ path.toList

/-- Whether a path begins with the given directory. -/
def LiesUnder (directory path : String) : Prop :=
  '/' ∉ directory.toList ∧ ∃ rest, path = directory ++ "/" ++ rest

theorem leadsThrough_iff {directory path : String} (plain : '/' ∉ directory.toList) :
    LeadsThrough directory path ↔ directory ∈ (splitText '/' path).dropLast := by
  have parts : directory ∈ (splitText '/' path).dropLast ↔
      directory.toList ∈ (split '/' path.toList).dropLast := by
    rw [splitText, List.map_dropLast.symm, List.mem_map]
    constructor
    · rintro ⟨part, member, rfl⟩
      rwa [String.toList_ofList]
    · intro member
      exact ⟨_, member, String.ofList_toList⟩
  rw [parts, mem_dropLast_split_iff, LeadsThrough]
  constructor
  · rintro ⟨before, after, rfl, ends⟩
    refine ⟨plain, before.toList, after.toList, by simp, ?_⟩
    rcases ends with rfl | ⟨above, rfl⟩
    · exact .inl rfl
    · exact .inr ⟨above.toList, by simp⟩
  · rintro ⟨_, before, after, whole, ends⟩
    refine ⟨String.ofList before, String.ofList after, ?_, ?_⟩
    · apply String.toList_injective
      simpa using whole
    · rcases ends with rfl | ⟨above, rfl⟩
      · exact .inl rfl
      · exact .inr ⟨String.ofList above, by apply String.toList_injective; simp⟩

theorem isExcluded_iff (path : String) : isExcluded path = true ↔ IsForeign path := by
  have plain : ∀ directory ∈ excludedDirectories, '/' ∉ directory.toList := by decide
  rw [isExcluded, List.any_eq_true, IsForeign]
  constructor
  · rintro ⟨directory, member, listed⟩
    rw [List.contains_iff_mem] at listed
    exact ⟨directory, listed, (leadsThrough_iff (plain directory listed)).2 member⟩
  · rintro ⟨directory, listed, through⟩
    exact ⟨directory, (leadsThrough_iff (plain directory listed)).1 through,
      List.contains_iff_mem.2 listed⟩

instance : DecidablePred IsForeign :=
  fun path => decidable_of_iff _ (isExcluded_iff path)

theorem isTopLevel_or_exists_liesUnder (path : String) :
    IsTopLevel path ∨ ∃ directory, LiesUnder directory path := by
  by_cases slash : '/' ∈ path.toList
  · obtain ⟨front, rest, whole, first⟩ := List.eq_append_cons_of_mem slash
    refine .inr ⟨String.ofList front, by rwa [String.toList_ofList], String.ofList rest, ?_⟩
    apply String.toList_injective
    simpa using whole
  · exact .inl slash

theorem splitText_of_liesUnder {directory path : String} (under : LiesUnder directory path) :
    ∃ rest, splitText '/' path = directory :: splitText '/' rest := by
  obtain ⟨plain, rest, rfl⟩ := under
  refine ⟨rest, ?_⟩
  have whole : (directory ++ "/" ++ rest).toList = directory.toList ++ '/' :: rest.toList := by simp
  rw [splitText, whole, split_append plain, List.map_cons, String.ofList_toList]
  rfl

theorem LiesUnder.unique {directory other path : String} (under : LiesUnder directory path)
    (under' : LiesUnder other path) : directory = other := by
  obtain ⟨_, parts⟩ := splitText_of_liesUnder under
  obtain ⟨_, parts'⟩ := splitText_of_liesUnder under'
  rw [parts] at parts'
  exact (List.cons.inj parts').1

theorem LiesUnder.not_isTopLevel {directory path : String} (under : LiesUnder directory path) :
    ¬ IsTopLevel path := by
  obtain ⟨_, rest, rfl⟩ := under
  simp [IsTopLevel]

/-- A path that does not begin with a slash lies under a directory with a name. -/
theorem LiesUnder.ne_empty {directory path : String} (under : LiesUnder directory path)
    (relative : startsWith path "/" = false) : directory ≠ "" := by
  rintro rfl
  obtain ⟨_, rest, rfl⟩ := under
  simp [startsWith] at relative

theorem topDirectory_of_isTopLevel {path : String} (top : IsTopLevel path) :
    topDirectory path = rootEntity := by
  have alone : splitText '/' path = [path] := by
    rw [splitText, split_of_not_mem top, List.map_singleton, String.ofList_toList]
  rw [topDirectory, alone]

theorem topDirectory_of_liesUnder {directory path : String} (under : LiesUnder directory path)
    (relative : startsWith path "/" = false) : topDirectory path = directory := by
  obtain ⟨rest, parts⟩ := splitText_of_liesUnder under
  obtain ⟨next, others, further⟩ : ∃ next others, splitText '/' rest = next :: others :=
    List.exists_cons_of_ne_nil (by simp [splitText, split_ne_nil])
  rw [topDirectory, parts, further]
  exact if_neg (under.ne_empty relative)

/-- Which entity a path belongs to. -/
theorem topDirectory_eq_iff {path : String} (relative : startsWith path "/" = false)
    (name : String) :
    topDirectory path = name ↔ name = rootEntity ∧ IsTopLevel path ∨ LiesUnder name path := by
  rcases isTopLevel_or_exists_liesUnder path with top | ⟨directory, under⟩
  · rw [topDirectory_of_isTopLevel top]
    constructor
    · rintro rfl
      exact .inl ⟨rfl, top⟩
    · rintro (⟨rfl, _⟩ | under)
      · rfl
      · exact absurd top under.not_isTopLevel
  · rw [topDirectory_of_liesUnder under relative]
    constructor
    · rintro rfl
      exact .inr under
    · rintro (⟨_, top⟩ | under')
      · exact absurd top under.not_isTopLevel
      · exact under.unique under'

/-- The files outside every directory share their name with a directory. -/
theorem topDirectory_eq_rootEntity_iff {path : String} (relative : startsWith path "/" = false) :
    topDirectory path = rootEntity ↔ IsTopLevel path ∨ LiesUnder rootEntity path := by
  rw [topDirectory_eq_iff relative, eq_self, true_and]

theorem topDirectory_ne_empty (path : String) : topDirectory path ≠ "" := by
  have named : rootEntity ≠ "" := by decide
  unfold topDirectory
  split
  · split
    · exact named
    · next filled => exact filled
  · exact named

/-! ### The entities -/

/-- The entity that a path belongs to, if it is not left out. -/
def placeOf (path : String) : Option String :=
  if isExcluded path then none else some (topDirectory path)

theorem placeOf_eq_some_iff (path name : String) :
    placeOf path = some name ↔ ¬ IsForeign path ∧ topDirectory path = name := by
  rw [placeOf, ← isExcluded_iff]
  split
  · next excluded => simp [excluded]
  · next kept => simp [kept]

variable (ranked : List RankedFile)

/-- The names of the entities in order of first appearance. -/
def placesOf : List String :=
  ((ranked.map RankedFile.path).filterMap placeOf).eraseDups

/-- The entity of a name. -/
def entityNamed (name : String) : Entity where
  name := name
  path := if name = rootEntity then "" else name
  files := (ranked.map RankedFile.path).filter (fun path => placeOf path = some name)

/-- The paths that are grouped. -/
def groupedPaths : List String :=
  (ranked.map RankedFile.path).filter (fun path => ¬ IsForeign path)

theorem groupedPaths_eq :
    groupedPaths ranked = (ranked.map RankedFile.path).filter (fun path => !isExcluded path) := by
  apply List.filter_congr
  intro path _
  rw [Bool.eq_iff_iff]
  simp [← isExcluded_iff]

theorem placesOf_eq : placesOf ranked = ((groupedPaths ranked).map topDirectory).eraseDups := by
  rw [placesOf, groupedPaths_eq, ← List.filterMap_eq_map (f := topDirectory), List.filterMap_filter]
  congr 1
  apply List.filterMap_congr
  intro path _
  cases excluded : isExcluded path <;> simp [placeOf, excluded]

theorem files_entityNamed (name : String) : (entityNamed ranked name).files =
    (groupedPaths ranked).filter (fun path => topDirectory path = name) := by
  rw [groupedPaths, List.filter_filter]
  apply List.filter_congr
  intro path _
  rw [Bool.eq_iff_iff]
  simp [placeOf_eq_some_iff, and_comm]

/-- The loop over the paths leaves each entity with its own paths. -/
theorem grouped_eq (paths : List String) :
    grouped paths = (paths.map topDirectory).eraseDups.map (fun name =>
      (name, paths.filter (fun path => topDirectory path = name))) := by
  have collected := OrderedMap.entries_collect_append topDirectory id paths
  simp only [List.map_id, id_eq] at collected
  exact collected

/-- The entities are those of the names, sorted by size. -/
theorem entitiesOf_eq : entitiesOf ranked = ((placesOf ranked).map (entityNamed ranked)).mergeSort
    (fun first second => second.files.length ≤ first.files.length) := by
  unfold entitiesOf
  simp only
  rw [← groupedPaths_eq, grouped_eq, List.map_map, ← placesOf_eq]
  congr 2
  funext name
  simp [entityOf, entityNamed, ← files_entityNamed]

theorem entitiesOf_perm :
    (entitiesOf ranked).Perm ((placesOf ranked).map (entityNamed ranked)) := by
  rw [entitiesOf_eq]
  exact List.mergeSort_perm _ _

variable {ranked}

theorem mem_placesOf_iff (name : String) :
    name ∈ placesOf ranked ↔ ∃ path ∈ groupedPaths ranked, topDirectory path = name := by
  rw [placesOf_eq, List.mem_eraseDups, List.mem_map]

theorem mem_entitiesOf_iff (entity : Entity) :
    entity ∈ entitiesOf ranked ↔
      entity.name ∈ placesOf ranked ∧ entity = entityNamed ranked entity.name := by
  rw [(entitiesOf_perm ranked).mem_iff, List.mem_map]
  constructor
  · rintro ⟨name, listed, rfl⟩
    exact ⟨listed, rfl⟩
  · rintro ⟨listed, same⟩
    exact ⟨entity.name, listed, same.symm⟩

theorem mem_files_iff {entity : Entity} (listed : entity ∈ entitiesOf ranked) (path : String) :
    path ∈ entity.files ↔ path ∈ groupedPaths ranked ∧ topDirectory path = entity.name := by
  rw [((mem_entitiesOf_iff entity).1 listed).2, files_entityNamed, List.mem_filter,
    decide_eq_true_eq]
  rfl

/-! ### Order -/

/-- An item that a test finds first stands where the test first succeeds. -/
theorem idxOf_of_find? {α : Type} [DecidableEq α] {items : List α} {test : α → Bool} {item : α}
    (found : items.find? test = some item) : items.idxOf item = items.findIdx test := by
  obtain ⟨passes, before, after, rfl, earlier⟩ := List.find?_eq_some_iff_append.1 found
  have absent : item ∉ before := by
    intro member
    have fails := earlier item member
    rw [passes] at fails
    cases fails
  have none : before.findIdx test = before.length := by
    rw [List.findIdx_eq_length]
    intro other member
    simpa using earlier other member
  rw [List.idxOf_append_of_notMem absent, List.findIdx_append, none]
  simp [List.findIdx_cons, passes]

/-- The entities stand by falling number of files, and those of one size by the rank of their first
files. -/
theorem pairwise_entitiesOf (ranked : List RankedFile) :
    (entitiesOf ranked).Pairwise (fun first second =>
      second.files.length ≤ first.files.length ∧
        (first.files.length = second.files.length →
          ∀ path ∈ first.files.head?, ∀ other ∈ second.files.head?,
            (ranked.map RankedFile.path).idxOf path <
              (ranked.map RankedFile.path).idxOf other)) := by
  have names := pairwise_findIdx_eraseDups placeOf (ranked.map RankedFile.path)
  have ordered : ((placesOf ranked).map (entityNamed ranked)).Pairwise (fun first second =>
      ∀ path ∈ first.files.head?, ∀ other ∈ second.files.head?,
        (ranked.map RankedFile.path).idxOf path < (ranked.map RankedFile.path).idxOf other) := by
    rw [List.pairwise_map]
    apply names.imp
    intro first second before path head other head'
    rw [entityNamed, Option.mem_def, List.head?_filter] at head head'
    rwa [idxOf_of_find? head, idxOf_of_find? head']
  have distinct : ((placesOf ranked).map (entityNamed ranked)).Nodup := by
    apply List.Nodup.of_map Entity.name
    rw [List.map_map]
    have same : Entity.name ∘ entityNamed ranked = id := rfl
    rw [same, List.map_id]
    exact nodup_eraseDups _
  rw [entitiesOf_eq]
  exact pairwise_mergeSort_descending (fun entity => entity.files.length) distinct ordered

/-- How entities share out the ranked files.  Together they hold the paths without a foreign
directory, each as often as it is ranked; they differ in name, and none is empty.  Each keeps the
order of the ranking.  The larger come first, and of one size that with the higher ranked first
file. -/
structure IsPartition (ranked : List RankedFile) (entities : List Entity) : Prop where
  files_perm : (entities.flatMap Entity.files).Perm
    ((ranked.map RankedFile.path).filter (fun path => ¬ IsForeign path))
  nonempty : ∀ entity ∈ entities, entity.files ≠ []
  nodup_names : (entities.map Entity.name).Nodup
  files_sublist : ∀ entity ∈ entities, entity.files.Sublist (ranked.map RankedFile.path)
  ordered : entities.Pairwise (fun first second =>
    second.files.length ≤ first.files.length ∧
      (first.files.length = second.files.length →
        ∀ path ∈ first.files.head?, ∀ other ∈ second.files.head?,
          (ranked.map RankedFile.path).idxOf path < (ranked.map RankedFile.path).idxOf other))

theorem isPartition_entitiesOf (ranked : List RankedFile) :
    IsPartition ranked (entitiesOf ranked) where
  files_perm := by
    have names : (placesOf ranked).Nodup := nodup_eraseDups _
    have covered : ∀ path ∈ groupedPaths ranked, topDirectory path ∈ placesOf ranked :=
      fun path member => (mem_placesOf_iff _).2 ⟨path, member, rfl⟩
    refine ((entitiesOf_perm ranked).flatMap_right Entity.files).trans ?_
    rw [List.flatMap_map]
    simp only [files_entityNamed]
    exact flatMap_filter_perm names topDirectory covered
  nonempty := by
    intro entity listed empty
    obtain ⟨path, member, place⟩ :=
      (mem_placesOf_iff _).1 ((mem_entitiesOf_iff entity).1 listed).1
    have inside := (mem_files_iff listed path).2 ⟨member, place⟩
    rw [empty] at inside
    cases inside
  nodup_names := by
    have names : ((placesOf ranked).map (entityNamed ranked)).map Entity.name =
        placesOf ranked := by
      rw [List.map_map]
      exact List.map_id _
    rw [((entitiesOf_perm ranked).map Entity.name).nodup_iff, names]
    exact nodup_eraseDups _
  files_sublist := by
    intro entity listed
    rw [((mem_entitiesOf_iff entity).1 listed).2]
    exact List.filter_sublist
  ordered := pairwise_entitiesOf ranked

/-! ### Which files belong together -/

theorem path_of_mem_entitiesOf {entity : Entity} (listed : entity ∈ entitiesOf ranked) :
    entity.path = if entity.name = rootEntity then "" else entity.name := by
  conv_lhs => rw [((mem_entitiesOf_iff entity).1 listed).2]
  rfl

theorem mem_groupedPaths_iff (path : String) :
    path ∈ groupedPaths ranked ↔ path ∈ ranked.map RankedFile.path ∧ ¬ IsForeign path := by
  rw [groupedPaths, List.mem_filter, decide_eq_true_eq]

/-- Grouped paths share an entity exactly if they belong to one of the same name. -/
theorem exists_shared_iff {path other : String} (member : path ∈ groupedPaths ranked)
    (member' : other ∈ groupedPaths ranked) :
    (∃ entity ∈ entitiesOf ranked, path ∈ entity.files ∧ other ∈ entity.files) ↔
      topDirectory path = topDirectory other := by
  constructor
  · rintro ⟨entity, listed, inside, inside'⟩
    exact ((mem_files_iff listed path).1 inside).2.trans
      ((mem_files_iff listed other).1 inside').2.symm
  · intro same
    have listed : entityNamed ranked (topDirectory path) ∈ entitiesOf ranked :=
      (mem_entitiesOf_iff _).2 ⟨(mem_placesOf_iff _).2 ⟨path, member, rfl⟩, rfl⟩
    exact ⟨_, listed, (mem_files_iff listed path).2 ⟨member, rfl⟩,
      (mem_files_iff listed other).2 ⟨member', same.symm⟩⟩

/-- Of grouped relative paths, two share an entity exactly if they lie under the same directory or
each of them is outside every directory or under one that is named like the entity of such files.
An entity with a path holds the files under that directory, and the entity without one holds the
others. -/
theorem shares_entity_iff {ranked : List RankedFile}
    (relative : ∀ file ∈ ranked, startsWith file.path "/" = false) :
    (∀ path ∈ ranked.map RankedFile.path, ¬ IsForeign path →
      ∀ other ∈ ranked.map RankedFile.path, ¬ IsForeign other →
        ((∃ entity ∈ entitiesOf ranked, path ∈ entity.files ∧ other ∈ entity.files) ↔
          (∃ directory, LiesUnder directory path ∧ LiesUnder directory other) ∨
            (IsTopLevel path ∨ LiesUnder rootEntity path) ∧
              (IsTopLevel other ∨ LiesUnder rootEntity other))) ∧
    ∀ entity ∈ entitiesOf ranked, ∀ path, path ∈ entity.files ↔
      path ∈ ranked.map RankedFile.path ∧ ¬ IsForeign path ∧
        if entity.path = "" then IsTopLevel path ∨ LiesUnder rootEntity path
        else LiesUnder entity.path path := by
  have starts {path : String} (listed : path ∈ ranked.map RankedFile.path) :
      startsWith path "/" = false := by
    obtain ⟨file, member, rfl⟩ := List.mem_map.1 listed
    exact relative file member
  constructor
  · intro path listed kept other listed' kept'
    rw [exists_shared_iff ((mem_groupedPaths_iff path).2 ⟨listed, kept⟩)
      ((mem_groupedPaths_iff other).2 ⟨listed', kept'⟩)]
    have outside := topDirectory_eq_rootEntity_iff (starts listed)
    have outside' := topDirectory_eq_rootEntity_iff (starts listed')
    constructor
    · intro same
      rcases (topDirectory_eq_iff (starts listed) _).1 same with ⟨root, _⟩ | under
      · exact .inr ⟨outside.1 (same.trans root), outside'.1 root⟩
      · rcases (topDirectory_eq_iff (starts listed') _).1 rfl with ⟨root, _⟩ | under'
        · exact .inr ⟨outside.1 (same.trans root), outside'.1 root⟩
        · exact .inl ⟨_, under, under'⟩
    · rintro (⟨directory, under, under'⟩ | ⟨place, place'⟩)
      · rw [topDirectory_of_liesUnder under (starts listed),
          topDirectory_of_liesUnder under' (starts listed')]
      · rw [outside.2 place, outside'.2 place']
  · intro entity present path
    have named : entity.name ≠ "" := by
      obtain ⟨first, _, place⟩ :=
        (mem_placesOf_iff _).1 ((mem_entitiesOf_iff entity).1 present).1
      rw [← place]
      exact topDirectory_ne_empty first
    rw [mem_files_iff present, mem_groupedPaths_iff, and_assoc, path_of_mem_entitiesOf present]
    apply and_congr_right
    intro listed
    apply and_congr_right
    intro _
    by_cases root : entity.name = rootEntity
    · rw [if_pos root, if_pos rfl, root]
      exact topDirectory_eq_rootEntity_iff (starts listed)
    · rw [if_neg root, if_neg named, topDirectory_eq_iff (starts listed)]
      simp [root]

/-- A file under a directory named `root`, and a file outside every directory. -/
def toolRanking : List RankedFile :=
  [⟨"root/tool.py", ⟨50⟩, .core, none, 0, 0⟩, ⟨"setup.py", ⟨50⟩, .core, none, 0, 0⟩]

/-- The two share an entity, and it has no path. -/
theorem shares_entity_toolRanking :
    (∀ file ∈ toolRanking, startsWith file.path "/" = false) ∧
    (∃ entity ∈ entitiesOf toolRanking, entity.path = "" ∧
      "root/tool.py" ∈ entity.files ∧ "setup.py" ∈ entity.files) ∧
    ¬ IsTopLevel "root/tool.py" ∧ IsTopLevel "setup.py" := by
  have relative : ∀ file ∈ toolRanking, startsWith file.path "/" = false := by decide
  obtain ⟨together, members⟩ := shares_entity_iff relative
  have under : LiesUnder rootEntity "root/tool.py" := ⟨by decide, "tool.py", by decide⟩
  have top : IsTopLevel "setup.py" := by
    unfold IsTopLevel
    decide
  obtain ⟨entity, present, inside, inside'⟩ :=
    (together "root/tool.py" (by decide) (by decide) "setup.py" (by decide) (by decide)).2
      (.inr ⟨.inr under, .inl top⟩)
  refine ⟨relative, ⟨entity, present, ?_, inside, inside'⟩, under.not_isTopLevel, top⟩
  by_contra placed
  obtain ⟨_, _, below⟩ := (members entity present "setup.py").1 inside'
  rw [if_neg placed] at below
  exact below.not_isTopLevel top

end Skeleton

end RepoAtlas
