/-
Module: RepoAtlas.Proofs.NameSelection
Purpose: Which names a skeleton offers for searching.
  The names of all functions and classes are counted, those that say something are sorted by their
  number, and the first ten are taken.  What was taken is described here by the definitions in the
  outlines alone: how often a name is defined, where it is defined first, and which files define it.
  That leaves one selection.
Main exports: IsSmallWord, IsDistinctive, definedNames, occurrences, DefinesAt, IsBefore,
  IsSelection, directory_eq_empty_iff, isSearchWorthy_iff, tallyOf_eq, occurrences_eq_count,
  pairwise_sortedNames, scopeOf_eq_some_iff, isSelection_searchPatternsOf, IsSelection.unique,
  searchPatternsOf_selects
-/
import RepoAtlas.Skeleton.Patterns
import RepoAtlas.Proofs.DirectoryWalk
import RepoAtlas.Proofs.ImportGraph
import Mathlib.Data.Finset.Card
import Mathlib.Data.Finset.Dedup

namespace RepoAtlas

namespace Path

/-- A path has a directory exactly if there is a slash on it. -/
theorem directory_eq_empty_iff (path : String) : directory path = "" ↔ '/' ∉ path.toList := by
  have whole := directoryPart_append_fileNameChars path.toList
  have plain := slash_not_mem_fileNameChars path.toList
  have text : directory path = "" ↔ directoryChars path.toList = [] := by
    rw [directory, ← String.toList_inj, String.toList_ofList]
    rfl
  rw [text, directoryChars]
  rcases directoryPart_cases path.toList with none | ⟨front, some⟩
  · rw [none, List.nil_append] at whole
    rw [none, ← whole]
    simp [plain]
  · have slash : '/' ∈ path.toList := by
      rw [← whole, some]
      simp
    simp only [some, slash, not_true_eq_false, iff_false]
    split
    · simp
    · next mixed =>
      rw [Text.dropEndWhile_append_singleton (by rfl)]
      intro nothing
      rw [Text.dropEndWhile, List.reverse_eq_nil_iff, List.dropWhile_eq_nil_iff] at nothing
      apply mixed
      rw [List.all_eq_true]
      intro char member
      rcases List.mem_append.1 member with within | last
      · exact nothing char (List.mem_reverse.2 within)
      · simpa using last

end Path

namespace Skeleton

open Text

/-! ### Names and their definitions -/

/-- Whether a name is a word of small letters, with or without a line feed behind it. -/
def IsSmallWord (name : String) : Prop :=
  ∃ letters, letters ≠ [] ∧ (∀ char ∈ letters, 'a' ≤ char ∧ char ≤ 'z') ∧
    (name.toList = letters ∨ name.toList = letters ++ ['\n'])

/-- Whether a name says something about a repository. -/
structure IsDistinctive (name : String) : Prop where
  long : 4 ≤ name.length
  specific : name ∉ genericNames
  longer : IsSmallWord name → 6 ≤ name.length

/-- The names that the parsed files define, in discovery order and functions before classes. -/
def definedNames (files : FileMap) : List String :=
  (outlines files).flatMap (fun outline =>
    outline.functions.map Symbol.name ++ outline.classes.map Symbol.name)

/-- How many functions and classes of the parsed files have a name. -/
def occurrences (files : FileMap) (name : String) : Nat :=
  ((outlines files).map (fun outline =>
    outline.functions.countP (fun symbol => symbol.name = name) +
      outline.classes.countP (fun symbol => symbol.name = name))).sum

/-- Whether the file at a path was parsed and defines a name. -/
def DefinesAt (files : FileMap) (path name : String) : Prop :=
  ∃ outline, files.get? path = some (some outline) ∧
    ∃ symbol, (symbol ∈ outline.functions ∨ symbol ∈ outline.classes) ∧ symbol.name = name

/-- Whether a name comes before another: it is defined more often, or as often and first earlier. -/
def IsBefore (files : FileMap) (first second : String) : Prop :=
  occurrences files second ≤ occurrences files first ∧
    (occurrences files first = occurrences files second →
      (definedNames files).idxOf first < (definedNames files).idxOf second)

/-! ### Which names are worth it -/

theorem isSmallWord_iff (name : String) : isSmallWord name = true ↔ IsSmallWord name := by
  have letter (char : Char) : char.isLower = true ↔ 'a' ≤ char ∧ char ≤ 'z' := by
    rw [show char.isLower = (decide ('a' ≤ char) && decide (char ≤ 'z')) from rfl,
      Bool.and_eq_true, decide_eq_true_eq, decide_eq_true_eq]
  have small (chars : List Char) : (!chars.isEmpty && chars.all Char.isLower) = true ↔
      chars ≠ [] ∧ ∀ char ∈ chars, 'a' ≤ char ∧ char ≤ 'z' := by
    simp [letter]
  unfold isSmallWord IsSmallWord
  simp only [small]
  rcases List.eq_nil_or_concat' name.toList with empty | ⟨front, last, whole⟩
  · simp [empty]
  · rw [whole, List.reverse_append, List.reverse_singleton, List.singleton_append]
    split
    · next rest broken =>
      obtain ⟨rfl, rfl⟩ := List.cons.inj broken
      constructor
      · rintro ⟨filled, letters⟩
        exact ⟨front, by simpa using filled, by simpa using letters, .inr rfl⟩
      · rintro ⟨letters, filled, range, same | same⟩
        · -- A line feed is no letter.
          have feed := range '\n' (by rw [← same]; simp)
          exact absurd feed (by decide)
        · obtain rfl := (List.append_left_inj _).1 same
          exact ⟨by simpa using filled, by simpa using range⟩
    · next unbroken =>
      have apart : last ≠ '\n' := by
        rintro rfl
        exact unbroken _ rfl
      constructor
      · rintro ⟨_, letters⟩
        exact ⟨front ++ [last], by simp, by simpa [or_comm] using letters, .inl rfl⟩
      · rintro ⟨letters, filled, range, same | same⟩
        · subst same
          exact ⟨by simp, by simpa [or_comm] using range⟩
        · exact absurd (List.append_inj_right' same rfl) (by simpa using apart)

theorem isSearchWorthy_iff (name : String) : isSearchWorthy name = true ↔ IsDistinctive name := by
  have short : (!(isSmallWord name && decide (name.length < 6))) = true ↔
      (IsSmallWord name → 6 ≤ name.length) := by
    rw [← isSmallWord_iff]
    cases isSmallWord name <;> simp
  rw [isSearchWorthy, Bool.and_eq_true, Bool.and_eq_true, short, decide_eq_true_eq]
  constructor
  · rintro ⟨⟨long, specific⟩, longer⟩
    exact ⟨long, by simpa using specific, longer⟩
  · rintro ⟨long, specific, longer⟩
    exact ⟨⟨long, by simpa using specific⟩, longer⟩

instance : DecidablePred IsDistinctive :=
  fun name => decidable_of_iff _ (isSearchWorthy_iff name)

/-! ### Counting -/

variable {files : FileMap}

theorem occurrences_eq_count (files : FileMap) (name : String) :
    occurrences files name = (definedNames files).count name := by
  rw [occurrences, definedNames, List.count_flatMap]
  congr 1
  apply List.map_congr_left
  intro outline _
  rw [Function.comp_apply, List.count_append, List.count, List.countP_map, List.countP_map]
  rfl

theorem mem_outlines_iff (outline : Outline) :
    outline ∈ outlines files ↔ ∃ path, files.get? path = some (some outline) := by
  rw [outlines, List.mem_filterMap]
  constructor
  · rintro ⟨_, member, rfl⟩
    obtain ⟨entry, listed, parsed⟩ := List.mem_map.1 member
    exact ⟨entry.1, (files.get?_eq_some_iff _ _).2 (by rw [← parsed]; exact listed)⟩
  · rintro ⟨path, parsed⟩
    exact ⟨some outline, List.mem_map.2 ⟨_, (files.get?_eq_some_iff _ _).1 parsed, rfl⟩, rfl⟩

theorem mem_definedNames_iff (name : String) :
    name ∈ definedNames files ↔ ∃ path, DefinesAt files path name := by
  rw [definedNames, List.mem_flatMap]
  constructor
  · rintro ⟨outline, listed, member⟩
    obtain ⟨path, parsed⟩ := (mem_outlines_iff outline).1 listed
    rcases List.mem_append.1 member with function | classType
    · obtain ⟨symbol, among, named⟩ := List.mem_map.1 function
      exact ⟨path, outline, parsed, symbol, .inl among, named⟩
    · obtain ⟨symbol, among, named⟩ := List.mem_map.1 classType
      exact ⟨path, outline, parsed, symbol, .inr among, named⟩
  · rintro ⟨path, outline, parsed, symbol, among, rfl⟩
    refine ⟨outline, (mem_outlines_iff outline).2 ⟨path, parsed⟩, List.mem_append.2 ?_⟩
    exact among.imp List.mem_map_of_mem List.mem_map_of_mem

/-- The functions and then the classes of a file that are worth searching for, by name. -/
def worthyNames (outline : Option Outline) : List String :=
  match outline with
  | none => []
  | some outline =>
    ((outline.functions ++ outline.classes).map Symbol.name).filter isSearchWorthy

/-- The names that are counted, each with the file that defines it. -/
def worthyDefinitions (files : FileMap) : List (String × String) :=
  files.entries.flatMap (fun file => (worthyNames file.2).map (fun name => (name, file.1)))

/-- Counting definitions counts their names and lists their files, each apart from the other. -/
theorem foldl_addFile (entries : List (String × Option Outline)) (tally : NameTally) :
    let definitions :=
      entries.flatMap (fun file => (worthyNames file.2).map (fun name => (name, file.1)))
    entries.foldl .addFile tally =
      { counts := OrderedMap.collectInto tally.counts Prod.fst 0 (fun count _ => count + 1)
          definitions
        paths := OrderedMap.collectInto tally.paths Prod.fst []
          (fun paths definition => addOnce paths definition.2) definitions } := by
  have inFile (path : String) (symbols : List Symbol) (tally : NameTally) :
      let definitions :=
        ((symbols.map Symbol.name).filter isSearchWorthy).map (fun name => (name, path))
      symbols.foldl (.add path) tally =
        { counts := OrderedMap.collectInto tally.counts Prod.fst 0 (fun count _ => count + 1)
            definitions
          paths := OrderedMap.collectInto tally.paths Prod.fst []
            (fun paths definition => addOnce paths definition.2) definitions } := by
    induction symbols generalizing tally with
    | nil => rfl
    | cons symbol rest ih =>
      rw [List.foldl_cons, ih, NameTally.add]
      cases worthy : isSearchWorthy symbol.name with
      | true => simp [worthy, OrderedMap.collectInto]
      | false => simp [worthy]
  induction entries generalizing tally with
  | nil => rfl
  | cons file rest ih =>
    obtain ⟨path, outline⟩ := file
    cases outline with
    | none => exact ih tally
    | some outline =>
      rw [List.foldl_cons, ih, NameTally.addFile]
      simp only [inFile]
      simp only [OrderedMap.collectInto, List.flatMap_cons, List.foldl_append, worthyNames]

/-- What the loops over all files count. -/
theorem tallyOf_eq (files : FileMap) :
    tallyOf files =
      { counts := countOccurrences ((worthyDefinitions files).map Prod.fst)
        paths := OrderedMap.collect Prod.fst [] (fun paths definition => addOnce paths definition.2)
          (worthyDefinitions files) } := by
  rw [tallyOf, foldl_addFile]
  simp only [countOccurrences, OrderedMap.collect, OrderedMap.collectInto, List.foldl_map]
  rfl

/-- The names that are counted are those that are defined and worth it. -/
theorem names_worthyDefinitions (files : FileMap) :
    (worthyDefinitions files).map Prod.fst = (definedNames files).filter isSearchWorthy := by
  unfold definedNames outlines OrderedMap.values worthyDefinitions
  induction files.entries with
  | nil => rfl
  | cons entry rest ih =>
    obtain ⟨path, outline⟩ := entry
    rw [List.flatMap_cons, List.map_append, ih]
    cases outline with
    | none => simp [worthyNames]
    | some outline => simp [worthyNames, Function.comp_def]

theorem count_worthy {name : String} (worthy : isSearchWorthy name = true) :
    ((definedNames files).filter isSearchWorthy).count name = occurrences files name := by
  rw [occurrences_eq_count, List.count_filter worthy]

/-! ### The order of the names -/

/-- Counting leaves the distinct items with the numbers of their occurrences. -/
theorem entries_countOccurrences (items : List String) :
    (countOccurrences items).entries = items.eraseDups.map (fun item => (item, items.count item)) := by
  rw [countOccurrences, OrderedMap.entries_collect, List.map_id]
  apply List.map_congr_left
  intro item _
  rw [List.foldl_add_const, Nat.zero_add, Nat.one_mul, List.count, List.countP_eq_length_filter]
  rfl

variable (items : List String)

theorem mostFrequent_eq :
    mostFrequent (countOccurrences items) =
      items.eraseDups.mergeSort (fun first second => items.count second ≤ items.count first) := by
  have counted : (items.eraseDups.mergeSort
      (fun first second => items.count second ≤ items.count first)).map
        (fun item => (item, items.count item)) =
      (countOccurrences items).entries.mergeSort (fun first second => second.2 ≤ first.2) := by
    rw [entries_countOccurrences]
    exact List.map_mergeSort (fun _ _ _ _ => rfl)
  rw [mostFrequent, ← counted, List.map_map]
  exact List.map_id _

theorem mem_mostFrequent_iff (item : String) :
    item ∈ mostFrequent (countOccurrences items) ↔ item ∈ items := by
  rw [mostFrequent_eq, List.mem_mergeSort, List.mem_eraseDups]

theorem nodup_mostFrequent : (mostFrequent (countOccurrences items)).Nodup := by
  rw [mostFrequent_eq, (List.mergeSort_perm _ _).nodup_iff]
  exact nodup_eraseDups items

theorem length_mostFrequent :
    (mostFrequent (countOccurrences items)).length = items.toFinset.card := by
  have same : (mostFrequent (countOccurrences items)).toFinset = items.toFinset := by
    ext item
    simp only [List.mem_toFinset, mem_mostFrequent_iff]
  rw [← same, List.toFinset_card_of_nodup (nodup_mostFrequent items)]

/-- The names worth it, most frequent first. -/
def sortedNames (files : FileMap) : List String :=
  mostFrequent (countOccurrences ((definedNames files).filter isSearchWorthy))

theorem mem_sortedNames_iff (name : String) :
    name ∈ sortedNames files ↔ IsDistinctive name ∧ ∃ path, DefinesAt files path name := by
  rw [sortedNames, mem_mostFrequent_iff, List.mem_filter, mem_definedNames_iff, isSearchWorthy_iff,
    and_comm]

/-- Names worth it stand in the order in which they are first defined. -/
theorem pairwise_eraseDups_worthy (files : FileMap) :
    ((definedNames files).filter isSearchWorthy).eraseDups.Pairwise (fun first second =>
      (definedNames files).idxOf first < (definedNames files).idxOf second) := by
  have ordered := pairwise_findIdx_eraseDups (Option.guard (isSearchWorthy ·))
    (definedNames files)
  rw [List.filterMap_eq_filter] at ordered
  have place {name : String}
      (member : name ∈ ((definedNames files).filter isSearchWorthy).eraseDups) :
      (definedNames files).findIdx (fun item => Option.guard (isSearchWorthy ·) item = some name) =
        (definedNames files).idxOf name := by
    have worthy := (List.mem_filter.1 (List.mem_eraseDups.1 member)).2
    rw [List.idxOf]
    congr 1
    funext item
    rw [Bool.eq_iff_iff, decide_eq_true_eq, Option.guard_eq_some_iff, beq_iff_eq]
    constructor
    · exact fun same => same.1
    · rintro rfl
      exact ⟨rfl, worthy⟩
  apply ordered.imp_of_mem
  intro first second member member' before
  rwa [place member, place member'] at before

theorem pairwise_sortedNames (files : FileMap) :
    (sortedNames files).Pairwise (IsBefore files) := by
  have sorted := pairwise_mergeSort_descending
    (fun name => ((definedNames files).filter isSearchWorthy).count name)
    (nodup_eraseDups _) (pairwise_eraseDups_worthy files)
  rw [sortedNames, mostFrequent_eq]
  apply sorted.imp_of_mem
  intro first second member member' before
  rw [List.mem_mergeSort, List.mem_eraseDups, List.mem_filter] at member member'
  rw [count_worthy member.2, count_worthy member'.2] at before
  exact before

/-! ### Where a name is defined -/

theorem mem_worthyDefinitions_iff {name : String} (worthy : isSearchWorthy name = true)
    (path : String) : (name, path) ∈ worthyDefinitions files ↔ DefinesAt files path name := by
  rw [worthyDefinitions, List.mem_flatMap]
  constructor
  · rintro ⟨⟨other, outline⟩, listed, member⟩
    obtain ⟨same, defined, paired⟩ := List.mem_map.1 member
    cases paired
    cases outline with
    | none => cases defined
    | some outline =>
      obtain ⟨symbol, among, named⟩ := List.mem_map.1 (List.mem_filter.1 defined).1
      exact ⟨outline, (files.get?_eq_some_iff _ _).2 listed, symbol, List.mem_append.1 among, named⟩
  · rintro ⟨outline, found, symbol, among, rfl⟩
    refine ⟨(path, some outline), (files.get?_eq_some_iff _ _).1 found, ?_⟩
    apply List.mem_map_of_mem
    exact List.mem_filter.2 ⟨List.mem_map_of_mem (List.mem_append.2 among), worthy⟩

/-- The files that the loops list for a name. -/
def definingFiles (files : FileMap) (name : String) : List String :=
  ((tallyOf files).paths.get? name).getD []

theorem definingFiles_eq (files : FileMap) (name : String) :
    definingFiles files name =
      (((worthyDefinitions files).filter (fun definition => definition.1 = name)).map
        Prod.snd).eraseDups := by
  rw [definingFiles, tallyOf_eq, OrderedMap.collect, OrderedMap.getD_get?_collectInto]
  exact foldl_addOnce Prod.snd _

theorem mem_definingFiles_iff {name : String} (worthy : isSearchWorthy name = true)
    (path : String) : path ∈ definingFiles files name ↔ DefinesAt files path name := by
  rw [definingFiles_eq, List.mem_eraseDups, ← mem_worthyDefinitions_iff worthy, List.mem_map]
  constructor
  · rintro ⟨definition, member, rfl⟩
    obtain ⟨listed, same⟩ := List.mem_filter.1 member
    rwa [← of_decide_eq_true same]
  · intro listed
    exact ⟨_, List.mem_filter.2 ⟨listed, decide_eq_true rfl⟩, rfl⟩

theorem definingFiles_eq_singleton_iff {name : String} (worthy : isSearchWorthy name = true)
    (path : String) :
    definingFiles files name = [path] ↔
      DefinesAt files path name ∧ ∀ other, DefinesAt files other name → other = path := by
  have once : (definingFiles files name).Nodup := by
    rw [definingFiles_eq]
    exact nodup_eraseDups _
  simp only [← mem_definingFiles_iff worthy]
  constructor
  · intro only
    simp [only]
  · rintro ⟨member, alone⟩
    exact List.perm_singleton.1 ((List.perm_ext_iff_of_nodup once (List.nodup_singleton path)).2
      (fun other => ⟨fun listed => List.mem_singleton.2 (alone other listed),
        fun same => List.mem_singleton.1 same ▸ member⟩))

/-- A name has a scope exactly if one file alone defines it: the directory of that file. -/
theorem scopeOf_eq_some_iff {name : String} (worthy : isSearchWorthy name = true)
    (scope : String) :
    scopeOf (definingFiles files name) = some scope ↔ ∃ path, DefinesAt files path name ∧
      (∀ other, DefinesAt files other name → other = path) ∧
      scope = if '/' ∈ path.toList then Path.directory path else "." := by
  have shown (path : String) : (if Path.directory path = "" then "." else Path.directory path) =
      if '/' ∈ path.toList then Path.directory path else "." := by
    simp only [Path.directory_eq_empty_iff, ite_not]
  unfold scopeOf
  constructor
  · intro given
    split at given
    · next path only =>
      obtain ⟨defines, alone⟩ := (definingFiles_eq_singleton_iff worthy path).1 only
      simp only [Option.some.injEq, shown] at given
      exact ⟨path, defines, alone, given.symm⟩
    · cases given
  · rintro ⟨path, defines, alone, rfl⟩
    rw [(definingFiles_eq_singleton_iff worthy path).2 ⟨defines, alone⟩]
    simp only [shown]

/-! ### The selection -/

/-- What the search patterns of the discovered files are.  They are ten different names that say
something and that a parsed file defines, or all of them if there are no more; they stand in order,
and come before every such name that is left out.  A name that one file alone defines is to be
searched in its directory, and any other everywhere. -/
structure IsSelection (files : FileMap) (patterns : List SearchPattern) : Prop where
  nodup_names : (patterns.map SearchPattern.pattern).Nodup
  length_eq : patterns.length =
    min 10 ((definedNames files).filter (fun name => IsDistinctive name)).toFinset.card
  distinctive : ∀ pattern ∈ patterns, IsDistinctive pattern.pattern ∧
    ∃ path, DefinesAt files path pattern.pattern
  ordered : (patterns.map SearchPattern.pattern).Pairwise (IsBefore files)
  left_out : ∀ name, IsDistinctive name → name ∉ patterns.map SearchPattern.pattern →
    ∀ chosen ∈ patterns.map SearchPattern.pattern, IsBefore files chosen name
  scope_eq_some_iff : ∀ pattern ∈ patterns, ∀ scope, pattern.scope = some scope ↔
    ∃ path, DefinesAt files path pattern.pattern ∧
      (∀ other, DefinesAt files other pattern.pattern → other = path) ∧
      scope = if '/' ∈ path.toList then Path.directory path else "."

theorem names_searchPatternsOf (files : FileMap) :
    (searchPatternsOf files).map SearchPattern.pattern = (sortedNames files).take 10 := by
  unfold searchPatternsOf
  simp only
  rw [tallyOf_eq, names_worthyDefinitions, List.map_map]
  exact List.map_id _

/-- A name comes before every name that no file defines, if a file defines it. -/
theorem isBefore_of_undefined {chosen name : String} (defined : ∃ path, DefinesAt files path chosen)
    (undefined : ¬ ∃ path, DefinesAt files path name) : IsBefore files chosen name := by
  have none : occurrences files name = 0 := by
    rw [occurrences_eq_count, List.count_eq_zero, mem_definedNames_iff]
    exact undefined
  have some : 0 < occurrences files chosen := by
    rw [occurrences_eq_count, List.count_pos_iff, mem_definedNames_iff]
    exact defined
  rw [IsBefore, none]
  exact ⟨Nat.zero_le _, fun same => absurd same some.ne'⟩

theorem isSelection_searchPatternsOf (files : FileMap) :
    IsSelection files (searchPatternsOf files) where
  nodup_names := by
    rw [names_searchPatternsOf]
    exact (nodup_mostFrequent _).sublist (List.take_sublist _ _)
  length_eq := by
    have worthy : (definedNames files).filter isSearchWorthy =
        (definedNames files).filter (fun name => IsDistinctive name) := by
      apply List.filter_congr
      intro name _
      rw [Bool.eq_iff_iff, isSearchWorthy_iff, decide_eq_true_eq]
    rw [← List.length_map (f := SearchPattern.pattern), names_searchPatternsOf, List.length_take,
      sortedNames, length_mostFrequent, worthy]
  distinctive := by
    intro pattern listed
    have member := List.mem_map_of_mem (f := SearchPattern.pattern) listed
    rw [names_searchPatternsOf] at member
    exact (mem_sortedNames_iff _).1 (List.mem_of_mem_take member)
  ordered := by
    rw [names_searchPatternsOf]
    exact (pairwise_sortedNames files).sublist (List.take_sublist _ _)
  left_out := by
    intro name distinctive absent chosen member
    rw [names_searchPatternsOf] at absent member
    by_cases defined : ∃ path, DefinesAt files path name
    · have present := (mem_sortedNames_iff name).2 ⟨distinctive, defined⟩
      have parts := pairwise_sortedNames files
      rw [← List.take_append_drop 10 (sortedNames files)] at present parts
      have later := (List.mem_append.1 present).resolve_left absent
      exact (List.pairwise_append.1 parts).2.2 chosen member name later
    · exact isBefore_of_undefined
        ((mem_sortedNames_iff chosen).1 (List.mem_of_mem_take member)).2 defined
  scope_eq_some_iff := by
    intro pattern listed scope
    obtain ⟨name, member, rfl⟩ := List.mem_map.1 listed
    rw [tallyOf_eq, names_worthyDefinitions] at member
    have worthy := ((mem_sortedNames_iff name).1 (List.mem_of_mem_take member)).1
    exact scopeOf_eq_some_iff ((isSearchWorthy_iff name).2 worthy) scope

/-! ### Only one selection -/

theorem IsBefore.asymm {first second : String} (before : IsBefore files first second) :
    ¬ IsBefore files second first := by
  intro after
  have same := Nat.le_antisymm after.1 before.1
  exact Nat.lt_asymm (before.2 same) (after.2 same.symm)

/-- Of two selections, neither has a name that the other has not: each would put its own name before
that of the other. -/
theorem IsSelection.subset {first second : List SearchPattern} (selection : IsSelection files first)
    (selection' : IsSelection files second) :
    first.map SearchPattern.pattern ⊆ second.map SearchPattern.pattern := by
  intro name member
  by_contra absent
  have lengths : (first.map SearchPattern.pattern).length =
      (second.map SearchPattern.pattern).length := by
    rw [List.length_map, List.length_map, selection.length_eq, selection'.length_eq]
  obtain ⟨other, member', absent'⟩ : ∃ other, other ∈ second.map SearchPattern.pattern ∧
      other ∉ first.map SearchPattern.pattern := by
    by_contra covered
    simp only [not_exists, not_and, not_not] at covered
    have same := (selection'.nodup_names.subperm covered).perm_of_length_le lengths.le
    exact absent (same.mem_iff.2 member)
  obtain ⟨pattern, listed, rfl⟩ := List.mem_map.1 member
  obtain ⟨pattern', listed', rfl⟩ := List.mem_map.1 member'
  have before := selection.left_out _ (selection'.distinctive _ listed').1 absent' _ member
  have after := selection'.left_out _ (selection.distinctive _ listed).1 absent _ member'
  exact before.asymm after

/-- The properties of a selection leave no choice. -/
theorem IsSelection.unique {first second : List SearchPattern} (selection : IsSelection files first)
    (selection' : IsSelection files second) : first = second := by
  have perm : (first.map SearchPattern.pattern).Perm (second.map SearchPattern.pattern) :=
    (List.perm_ext_iff_of_nodup selection.nodup_names selection'.nodup_names).2
      (fun name => ⟨fun member => selection.subset selection' member,
        fun member => selection'.subset selection member⟩)
  have names := perm.eq_of_pairwise
    (fun _ _ _ _ before after => absurd after before.asymm) selection.ordered selection'.ordered
  apply List.ext_getElem (by simpa using congrArg List.length names)
  intro place within within'
  have name : first[place].pattern = second[place].pattern := by
    have here := List.getElem_of_eq names (i := place) (by simpa using within)
    simpa using here
  have scope : first[place].scope = second[place].scope := by
    apply Option.ext
    intro scope
    rw [selection.scope_eq_some_iff _ (List.getElem_mem within),
      selection'.scope_eq_some_iff _ (List.getElem_mem within'), name]
  cases whole : first[place]
  cases whole' : second[place]
  rw [whole, whole'] at name scope
  cases name
  cases scope
  rfl

/-- The search patterns are the one selection of names that the definitions of the files leave. -/
theorem searchPatternsOf_selects (files : FileMap) :
    IsSelection files (searchPatternsOf files) ∧
      ∀ patterns, IsSelection files patterns → patterns = searchPatternsOf files :=
  ⟨isSelection_searchPatternsOf files,
    fun _ other => other.unique (isSelection_searchPatternsOf files)⟩

end Skeleton

end RepoAtlas
