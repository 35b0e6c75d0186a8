/-
Module: RepoAtlas.Proofs.FindingRows
Purpose: The rows of the finding table, told by the files alone.
  The table is filled file by file, and rows of different layers and kinds grow side by side.  What
  a row says depends only on the files that contribute to it, in their order: the first directory
  among them, and the first names.  Which rows there are, and in which order, is said by where their
  keys occur first.
Main exports: DefinitionKind, FindingKey, Contribution, contributions, mem_contributions_iff,
  FindingKey.text_injective, AreFirstDistinct, Gathers, gathers_contributions, IsRow,
  IsFindingTable, findingTable_eq, IsFindingTable.unique, findingTable_has_row_per_key
-/
import RepoAtlas.Overview.Basic
import RepoAtlas.Proofs.FlowchartLines
import RepoAtlas.Proofs.NameSelection

namespace RepoAtlas.Overview

open Architecture

/-! ### What the files contribute -/

/-- The kinds of definitions that have rows of their own. -/
inductive DefinitionKind where
  | classes
  | functions
deriving DecidableEq

namespace DefinitionKind

/-- The word for definitions of a kind. -/
def noun : DefinitionKind → String
  | .classes => "classes"
  | .functions => "functions"

/-- The definitions of a kind in a file. -/
def symbols (outline : Outline) : DefinitionKind → List Symbol
  | .classes => outline.classes
  | .functions => outline.functions

end DefinitionKind

/-- What a row is about: definitions of one kind in files of one layer, or in files without one. -/
structure FindingKey where
  layer : Option Layer
  kind : DefinitionKind
deriving DecidableEq

/-- The pattern of a row: the kind, behind the layer if there is one. -/
def FindingKey.text : FindingKey → String
  | ⟨some layer, kind⟩ => layer.word ++ " " ++ kind.noun
  | ⟨none, kind⟩ => kind.noun

/-- The definitions of one kind in one file. -/
structure Contribution where
  path : String
  kind : DefinitionKind
  symbols : List Symbol

namespace Contribution

/-- The row that the definitions belong to. -/
def key (given : Contribution) : FindingKey :=
  ⟨Layer.ofPath given.path, given.kind⟩

/-- The names of the first two definitions. -/
def names (given : Contribution) : List String :=
  (given.symbols.take 2).map Symbol.name

end Contribution

/-- The definitions of each kind in a parsed file that has any, classes before functions. -/
def contributionsOf (path : String) (outline : Outline) : List Contribution :=
  ([.classes, .functions].map (fun kind => ⟨path, kind, kind.symbols outline⟩)).filter
    (fun given => !given.symbols.isEmpty)

/-- The definitions in the parsed files, in discovery order and classes before functions. -/
def contributions (files : FileMap) : List Contribution :=
  files.entries.flatMap (fun (path, outline) => (outline.map (contributionsOf path)).getD [])

/-- The contributions to a row, in discovery order. -/
def contributionsTo (files : FileMap) (key : FindingKey) : List Contribution :=
  (contributions files).filter (fun given => given.key = key)

/-- The first directory on some paths that is not empty. -/
def firstDirectory? (given : List Contribution) : Option String :=
  (given.map (fun each => Path.directory each.path)).find? (· ≠ "")

variable {files : FileMap}

theorem mem_contributionsOf_iff {path : String} {outline : Outline} (given : Contribution) :
    given ∈ contributionsOf path outline ↔
      given.path = path ∧ given.symbols = given.kind.symbols outline ∧ given.symbols ≠ [] := by
  rw [contributionsOf, List.mem_filter, List.mem_map]
  constructor
  · rintro ⟨⟨_, _, rfl⟩, filled⟩
    exact ⟨rfl, rfl, by simpa using filled⟩
  · rintro ⟨rfl, defined, filled⟩
    refine ⟨⟨given.kind, ?_, by rw [← defined]⟩, by simpa using filled⟩
    cases given.kind <;> simp

/-- What is contributed are the lists of definitions in the parsed files that are not empty. -/
theorem mem_contributions_iff (given : Contribution) :
    given ∈ contributions files ↔ ∃ outline, files.get? given.path = some (some outline) ∧
      given.symbols = given.kind.symbols outline ∧ given.symbols ≠ [] := by
  rw [contributions, List.mem_flatMap]
  constructor
  · rintro ⟨⟨path, _ | outline⟩, listed, member⟩
    · cases member
    · obtain ⟨rfl, defined⟩ := (mem_contributionsOf_iff given).1 member
      exact ⟨outline, (files.get?_eq_some_iff _ _).2 listed, defined⟩
  · rintro ⟨outline, parsed, defined⟩
    exact ⟨(given.path, some outline), (files.get?_eq_some_iff _ _).1 parsed,
      (mem_contributionsOf_iff given).2 ⟨rfl, defined⟩⟩

/-! ### Patterns -/

theorem findingKey_eq (layer : Option Layer) (kind : DefinitionKind) :
    findingKey layer kind.noun = FindingKey.text ⟨layer, kind⟩ := by
  cases layer <;> rfl

/-- The keys of all rows that there can be. -/
def allFindingKeys : List FindingKey :=
  (none :: Layer.all.map some).flatMap (fun layer => [⟨layer, .classes⟩, ⟨layer, .functions⟩])

/-- Different keys have different patterns. -/
theorem FindingKey.text_injective : Function.Injective FindingKey.text := by
  have found (key : FindingKey) :
      allFindingKeys.find? (fun other => other.text = key.text) = some key := by
    obtain ⟨_ | layer, kind⟩ := key
    · cases kind <;> decide
    · cases layer <;> cases kind <;> decide
  intro key other same
  rw [← Option.some_inj, ← found key, ← found other, same]

/-! ### First distinct items -/

section FirstDistinct

variable {α : Type} [DecidableEq α]

/-- Which items of a list are its first distinct ones, up to some number: different ones in the
order in which the list has them first, and one that is left out comes first after them all. -/
structure AreFirstDistinct (count : Nat) (items chosen : List α) : Prop where
  subset : chosen ⊆ items
  ordered : chosen.Pairwise (fun first second => items.idxOf first < items.idxOf second)
  length_le : chosen.length ≤ count
  left_out : ∀ item ∈ items, item ∉ chosen →
    chosen.length = count ∧ ∀ other ∈ chosen, items.idxOf other < items.idxOf item

theorem areFirstDistinct_take (count : Nat) (items : List α) :
    AreFirstDistinct count items (items.eraseDups.take count) where
  subset := fun _ member => List.mem_eraseDups.1 (List.mem_of_mem_take member)
  ordered := (pairwise_idxOf_eraseDups items).sublist (List.take_sublist _ _)
  length_le := List.length_take_le _ _
  left_out := by
    intro item member absent
    have present := List.mem_eraseDups.2 member
    have parts := pairwise_idxOf_eraseDups items
    rw [← List.take_append_drop count items.eraseDups] at present parts
    have later := (List.mem_append.1 present).resolve_left absent
    have more : count < items.eraseDups.length := by
      by_contra few
      rw [List.drop_eq_nil_of_le (Nat.le_of_not_lt few)] at later
      cases later
    exact ⟨List.length_take_of_le more.le,
      fun other chosen => (List.pairwise_append.1 parts).2.2 other chosen item later⟩

variable {count : Nat} {items first second : List α}

theorem AreFirstDistinct.nodup (distinct : AreFirstDistinct count items first) : first.Nodup := by
  apply distinct.ordered.imp
  rintro item _ before rfl
  exact Nat.lt_irrefl _ before

/-- Of two choices, neither has an item that the other has not: the other would be full of earlier
items, and those would fill the one without leaving room for it. -/
theorem AreFirstDistinct.subset_of (distinct : AreFirstDistinct count items first)
    (distinct' : AreFirstDistinct count items second) : first ⊆ second := by
  intro item member
  by_contra absent
  obtain ⟨full, before⟩ := distinct'.left_out item (distinct.subset member) absent
  have within : second ⊆ first := by
    intro other member'
    by_contra absent'
    have after := (distinct.left_out other (distinct'.subset member') absent').2 item member
    exact Nat.lt_asymm after (before other member')
  have same := (distinct'.nodup.subperm within).perm_of_length_le (full ▸ distinct.length_le)
  exact absent (same.mem_iff.2 member)

/-- The first distinct items are determined. -/
theorem AreFirstDistinct.unique (distinct : AreFirstDistinct count items first)
    (distinct' : AreFirstDistinct count items second) : first = second :=
  eq_of_ordered
    (fun _ => ⟨fun member => distinct.subset_of distinct' member,
      fun member => distinct'.subset_of distinct member⟩)
    distinct.ordered distinct'.ordered

end FirstDistinct

/-! ### What the table is -/

/-- What a row says of the files that contribute to it. -/
structure IsRow (files : FileMap) (key : FindingKey) (row : Finding) : Prop where
  pattern_eq : row.pattern = key.text
  location_eq : row.location = (firstDirectory? (contributionsTo files key)).getD "."
  location_of_topLevel :
    (∀ given ∈ contributionsTo files key, '/' ∉ given.path.toList) → row.location = "."
  examples_first : AreFirstDistinct 3 ((contributionsTo files key).flatMap Contribution.names)
    row.examples

/-- What the finding table of some files is: one row for each key that occurs, in the order in which
the keys occur first. -/
structure IsFindingTable (files : FileMap) (keys : List FindingKey) (table : List Finding) :
    Prop where
  mem_keys_iff : ∀ key, key ∈ keys ↔ ∃ path outline, files.get? path = some (some outline) ∧
    Layer.ofPath path = key.layer ∧ key.kind.symbols outline ≠ []
  ordered : keys.Pairwise (fun first second =>
    ((contributions files).map Contribution.key).idxOf first <
      ((contributions files).map Contribution.key).idxOf second)
  rows : List.Forall₂ (IsRow files) keys table
  nodup_patterns : (table.map Finding.pattern).Nodup

/-! ### Filling the table -/

/-- What has been found after some contributions to one row. -/
def foundIn (given : List Contribution) : Found :=
  ⟨(firstDirectory? given).getD "", given.flatMap Contribution.names⟩

/-- Adds a contribution to its row. -/
def addContribution (found : OrderedMap String Found) (given : Contribution) :
    OrderedMap String Found :=
  let directory := Path.directory given.path
  found.alter given.key.text ⟨directory, []⟩ (fun entry =>
    ⟨if entry.location = "" then directory else entry.location, entry.examples ++ given.names⟩)

/-- A file is added contribution by contribution. -/
theorem addFile_eq (found : OrderedMap String Found) (path : String) (outline : Option Outline) :
    addFile found path outline =
      ((outline.map (contributionsOf path)).getD []).foldl addContribution found := by
  cases outline with
  | none => rfl
  | some outline =>
    have added (found : OrderedMap String Found) (kind : DefinitionKind) :
        addFinding found path kind.noun (kind.symbols outline) =
          if (kind.symbols outline).isEmpty then found
          else addContribution found ⟨path, kind, kind.symbols outline⟩ := by
      rw [addFinding, findingKey_eq]
      rfl
    have classes := added found .classes
    have functions := added (addFinding found path "classes" outline.classes) .functions
    simp only [DefinitionKind.noun, DefinitionKind.symbols] at classes functions
    rw [addFile, functions, classes, Option.map_some, Option.getD_some, contributionsOf]
    by_cases none : outline.classes.isEmpty <;> by_cases none' : outline.functions.isEmpty <;>
      simp [DefinitionKind.symbols, none, none']

theorem foldl_addFile_eq (files : FileMap) :
    files.entries.foldl (fun found (path, outline) => addFile found path outline)
      ({} : OrderedMap String Found) =
        (contributions files).foldl addContribution ({} : OrderedMap String Found) := by
  rw [contributions, List.foldl_flatMap]
  congr 1
  funext found ⟨path, outline⟩
  exact addFile_eq found path outline

/-- Whether a map holds what has been found after some contributions: the patterns in the order in
which their keys occur first, and under each what the contributions of its key come to. -/
structure Gathers (seen : List Contribution) (found : OrderedMap String Found) : Prop where
  keys_eq : found.keys = (seen.map Contribution.key).eraseDups.map FindingKey.text
  get?_eq : ∀ key ∈ seen.map Contribution.key,
    found.get? key.text = some (foundIn (seen.filter (fun given => given.key = key)))

theorem foundIn_concat (seen : List Contribution) (given : Contribution) :
    foundIn (seen ++ [given]) =
      ⟨if (foundIn seen).location = "" then Path.directory given.path else (foundIn seen).location,
        (foundIn seen).examples ++ given.names⟩ := by
  have place : firstDirectory? (seen ++ [given]) =
      (firstDirectory? seen).or (firstDirectory? [given]) := by
    rw [firstDirectory?, List.map_append, List.find?_append]
    rfl
  have only : (firstDirectory? [given]).getD "" = Path.directory given.path := by
    by_cases top : Path.directory given.path = "" <;> simp [firstDirectory?, top]
  rw [foundIn, foundIn, place, List.flatMap_append, List.flatMap_singleton]
  cases some : firstDirectory? seen with
  | none => simp [only]
  | some directory =>
    have filled : directory ≠ "" := by simpa using List.find?_some some
    simp [filled]

/-- A contribution changes what its own key comes to, and adds the key at the end if it is new. -/
theorem Gathers.add {seen : List Contribution} {found : OrderedMap String Found}
    (gathers : Gathers seen found) (given : Contribution) :
    Gathers (seen ++ [given]) (addContribution found given) := by
  have occurs : given.key.text ∈ found.keys ↔ given.key ∈ seen.map Contribution.key := by
    rw [gathers.keys_eq, List.mem_map_of_injective FindingKey.text_injective, List.mem_eraseDups]
  constructor
  · rw [addContribution, OrderedMap.alter, OrderedMap.keys_insert, List.map_append,
      List.map_singleton, eraseDups_concat]
    simp only [occurs]
    split
    · exact gathers.keys_eq
    · rw [gathers.keys_eq, List.map_append, List.map_singleton]
  · intro key member
    rw [addContribution, OrderedMap.alter, OrderedMap.get?_insert, List.filter_append]
    by_cases own : given.key = key
    · subst own
      rw [if_pos rfl, List.filter_singleton, decide_eq_true rfl, cond_true, foundIn_concat]
      by_cases old : given.key ∈ seen.map Contribution.key
      · rw [gathers.get?_eq _ old, Option.getD_some]
      · have none : seen.filter (fun other => other.key = given.key) = [] := by
          rw [List.filter_eq_nil_iff]
          intro other listed same
          exact old (List.mem_map.2 ⟨other, listed, of_decide_eq_true same⟩)
        rw [(found.get?_eq_none_iff _).2 (mt occurs.1 old), Option.getD_none, none]
        simp [foundIn, firstDirectory?]
    · have others : key ∈ seen.map Contribution.key := by
        simpa [Ne.symm own] using member
      rw [if_neg (FindingKey.text_injective.ne own), gathers.get?_eq key others]
      simp [own]

theorem gathers_contributions (seen : List Contribution) :
    Gathers seen (seen.foldl addContribution {}) := by
  induction seen using List.reverseRecOn with
  | nil => exact ⟨rfl, by simp⟩
  | append_singleton seen given ih =>
    rw [List.foldl_append]
    exact ih.add given

/-! ### The rows -/

/-- The row of a key. -/
def rowOf (files : FileMap) (key : FindingKey) : Finding where
  pattern := key.text
  location := (firstDirectory? (contributionsTo files key)).getD "."
  examples := ((contributionsTo files key).flatMap Contribution.names).eraseDups.take 3

/-- A directory that was found is not empty, so a row without a location has found none. -/
theorem getD_firstDirectory? (given : List Contribution) :
    (if (firstDirectory? given).getD "" = "" then "." else (firstDirectory? given).getD "") =
      (firstDirectory? given).getD "." := by
  cases found : firstDirectory? given with
  | none => rfl
  | some directory =>
    have filled : directory ≠ "" := by simpa using List.find?_some found
    simp [filled]

/-- The table has the row of each key, in the order in which the keys occur first. -/
theorem findingTable_eq (files : FileMap) :
    findingTable files =
      ((contributions files).map Contribution.key).eraseDups.map (rowOf files) := by
  have gathers := gathers_contributions (contributions files)
  rw [← foldl_addFile_eq] at gathers
  unfold findingTable
  simp only
  rw [OrderedMap.map_entries_eq_map_keys _ (fun pattern (entry : Found) => (⟨pattern,
    if entry.location = "" then "." else entry.location,
    entry.examples.eraseDups.take 3⟩ : Finding)) ⟨"", []⟩, gathers.keys_eq, List.map_map]
  apply List.map_congr_left
  intro key member
  rw [Function.comp_apply, gathers.get?_eq key (List.mem_eraseDups.1 member), Option.getD_some]
  exact congrArg (Finding.mk key.text · _) (getD_firstDirectory? _)

theorem isRow_rowOf (files : FileMap) (key : FindingKey) : IsRow files key (rowOf files key) where
  pattern_eq := rfl
  location_eq := rfl
  location_of_topLevel := by
    intro topLevel
    have none : firstDirectory? (contributionsTo files key) = none := by
      rw [firstDirectory?, List.find?_eq_none]
      intro directory member
      obtain ⟨given, listed, rfl⟩ := List.mem_map.1 member
      simpa using (Path.directory_eq_empty_iff _).2 (topLevel given listed)
    rw [rowOf, none, Option.getD_none]
  examples_first := areFirstDistinct_take 3 _

theorem IsRow.unique {key : FindingKey} {first second : Finding} (row : IsRow files key first)
    (row' : IsRow files key second) : first = second := by
  have pattern := row.pattern_eq.trans row'.pattern_eq.symm
  have location := row.location_eq.trans row'.location_eq.symm
  have examples := row.examples_first.unique row'.examples_first
  cases first
  cases second
  cases pattern
  cases location
  cases examples
  rfl

theorem isFindingTable_findingTable (files : FileMap) :
    IsFindingTable files ((contributions files).map Contribution.key).eraseDups
      (findingTable files) where
  mem_keys_iff := by
    intro key
    rw [List.mem_eraseDups, List.mem_map]
    constructor
    · rintro ⟨given, member, rfl⟩
      obtain ⟨outline, parsed, defined, filled⟩ := (mem_contributions_iff given).1 member
      exact ⟨given.path, outline, parsed, rfl, defined ▸ filled⟩
    · rintro ⟨path, outline, parsed, layer, filled⟩
      refine ⟨⟨path, key.kind, key.kind.symbols outline⟩, ?_, ?_⟩
      · exact (mem_contributions_iff _).2 ⟨outline, parsed, rfl, filled⟩
      · rw [Contribution.key, layer]
  ordered := pairwise_idxOf_eraseDups _
  rows := by
    rw [findingTable_eq, List.forall₂_map_right_iff, List.forall₂_same]
    exact fun key _ => isRow_rowOf files key
  nodup_patterns := by
    have patterns : Finding.pattern ∘ rowOf files = FindingKey.text := rfl
    rw [findingTable_eq, List.map_map, patterns]
    exact (nodup_eraseDups _).map FindingKey.text_injective

/-- The rows of a finding table are those of its keys. -/
theorem IsFindingTable.eq_map_rowOf {keys : List FindingKey} {table : List Finding}
    (described : IsFindingTable files keys table) : table = keys.map (rowOf files) := by
  have rows : List.Forall₂ (fun key row => rowOf files key = row) keys table :=
    described.rows.imp (fun key _ row => (isRow_rowOf files key).unique row)
  have equal := List.forall₂_map_left_iff.2 rows
  rw [List.forall₂_eq_eq_eq] at equal
  exact equal.symm

/-- The properties of a finding table leave no choice. -/
theorem IsFindingTable.unique {keys keys' : List FindingKey} {first second : List Finding}
    (described : IsFindingTable files keys first)
    (described' : IsFindingTable files keys' second) : keys = keys' ∧ first = second := by
  have same : keys = keys' := by
    apply eq_of_ordered _ described.ordered described'.ordered
    intro key
    rw [described.mem_keys_iff, described'.mem_keys_iff]
  exact ⟨same, by rw [described.eq_map_rowOf, described'.eq_map_rowOf, same]⟩

/-- The finding table of an overview has one row for each key that occurs, in the order in which the
keys occur first, and the files that contribute to a row determine it. -/
theorem findingTable_has_row_per_key (files : FileMap) (graph : Imports.Graph)
    (architecture : Graph) :
    ∃ keys, IsFindingTable files keys (report files graph architecture).findingTable ∧
      ∀ keys' table, IsFindingTable files keys' table →
        keys' = keys ∧ table = (report files graph architecture).findingTable :=
  ⟨_, isFindingTable_findingTable files,
    fun _ _ other => other.unique (isFindingTable_findingTable files)⟩

example :
    let function (name : String) : Symbol := { name, kind := .function, line := 1 }
    let python (functions : List Symbol) : Option Outline :=
      some { language := "python", functions }
    findingTable (.ofList [
      ("run.py", python [function "main"]),
      ("core/shape.py", python [function "area"]),
      ("tools/make.py", python [function "build", function "main", function "clean"])]) =
        [⟨"functions", "tools", ["main", "build"]⟩, ⟨"domain functions", "core", ["area"]⟩] := by
  decide

end RepoAtlas.Overview
