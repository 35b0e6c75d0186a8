/-
Module: RepoAtlas.Proofs.FileRanking
Purpose: The files of an import graph in order of importance.
  The ranking lists every file of the graph once, with what its own node and outline say of it.  It is
  sorted by the double that an importance is shown as; the sort is stable, so equals stand in discovery
  order.  Importance itself follows the number of importers, as far as roles can be compared.
Main exports: IsRanking, mem_rank_iff, inDegree_le_maxInDegree, pairwise_rank, isRanking_rank,
  importance_follows_importers
-/
import RepoAtlas.Proofs.FileConservation
import RepoAtlas.Proofs.RoundedScores

namespace RepoAtlas.Ranking

open Imports

/-- What the ranking of the files of an import graph is, with counts from the given outlines or
without.  Every file is listed once, the greatest importance first and equals in discovery order.  Each
entry has the role of its path, the rounded score of its own node, and the counts of the outline that
is given for its path, or zero. -/
structure IsRanking (graph : Graph) (given : Option FileMap) (ranking : List RankedFile) : Prop where
  nodup_paths : (ranking.map RankedFile.path).Nodup
  mem_paths_iff : ∀ path, path ∈ ranking.map RankedFile.path ↔ path ∈ graph.nodes.keys
  ordered : ranking.Pairwise (fun first second =>
    second.importance.value < first.importance.value ∨
      first.importance.value = second.importance.value ∧
        graph.nodes.keys.idxOf first.path < graph.nodes.keys.idxOf second.path)
  own_node : ∀ file ∈ ranking, ∃ node, graph.nodes.get? file.path = some node ∧
    file.role = Role.ofPath file.path ∧
    file.importance =
      Importance.ofScore (score node.inDegree graph.maxInDegree (Role.ofPath file.path)) ∧
    file.imports? = if node.imports = [] then none else some node.imports
  own_counts : ∀ file ∈ ranking, ∀ outlines outline, given = some outlines →
    outlines.get? file.path = some (some outline) →
    file.exportCount = (outline.functions.filter Symbol.exported).length +
        (outline.classes.filter Symbol.exported).length + outline.exports.length ∧
      file.functionCount = outline.functions.length
  no_counts : ∀ file ∈ ranking,
    (∀ outlines, given = some outlines → (outlines.get? file.path).join = none) →
    file.exportCount = 0 ∧ file.functionCount = 0

variable {files : FileMap} {given : Option FileMap}

/-! ### Entries -/

section Entry

variable (most : Nat) (outline : Option Outline) (node : Node)

@[simp] theorem path_rankedFile : (rankedFile most outline node).path = node.path :=
  rfl

theorem role_rankedFile : (rankedFile most outline node).role = Role.ofPath node.path := by
  simp only [rankedFile]

theorem importance_rankedFile :
    (rankedFile most outline node).importance =
      Importance.ofScore (score node.inDegree most (Role.ofPath node.path)) := by
  simp only [rankedFile]

end Entry

/-- A ranked file is a node of the graph with the outline given for its path. -/
theorem mem_rank_iff {file : RankedFile} :
    file ∈ rank (build files) given ↔ ∃ node ∈ (nodes files).values,
      file = rankedFile (build files).maxInDegree (given.bind (·.get? node.path)).join node := by
  rw [rank, byImportance, List.mem_mergeSort, List.mem_map]
  simp only [eq_comm]
  rfl

theorem le_foldl_max {counts : List Nat} {count start : Nat}
    (reached : count ≤ start ∨ count ∈ counts) : count ≤ counts.foldl max start := by
  induction counts generalizing start with
  | nil => simpa using reached
  | cons next rest ih =>
    apply ih
    rcases reached with small | member
    · exact .inl (small.trans (le_max_left start next))
    · rcases List.mem_cons.1 member with rfl | later
      · exact .inl (le_max_right start count)
      · exact .inr later

theorem inDegree_le_maxInDegree {node : Node} (member : node ∈ (nodes files).values) :
    node.inDegree ≤ (build files).maxInDegree :=
  le_foldl_max (.inr (List.mem_map_of_mem member))

theorem thousandths_le_of_mem_rank {file : RankedFile} (member : file ∈ rank (build files) given) :
    file.importance.thousandths ≤ 1000 := by
  obtain ⟨node, -, rfl⟩ := mem_rank_iff.1 member
  obtain ⟨nonneg, unit⟩ := score_mem_unit node.inDegree (build files).maxInDegree
    (Role.ofPath node.path)
  rw [importance_rankedFile]
  exact Importance.thousandths_ofScore_le nonneg unit

/-! ### Order -/

/-- Equal importances stand in discovery order, because nodes do and the sort is stable. -/
theorem pairwise_rank (files : FileMap) (given : Option FileMap) :
    (rank (build files) given).Pairwise (fun first second =>
      second.importance.thousandths ≤ first.importance.thousandths ∧
        (first.importance.thousandths = second.importance.thousandths →
          files.keys.idxOf first.path < files.keys.idxOf second.path)) := by
  have ordered : ((nodes files).values.map (fun node =>
      rankedFile (build files).maxInDegree (given.bind (·.get? node.path)).join node)).Pairwise
        (fun first second => files.keys.idxOf first.path < files.keys.idxOf second.path) :=
    List.pairwise_map.2 (pairwise_values_nodes files)
  have distinct := ordered.imp (fun {first second} before (same : first = second) =>
    Nat.lt_irrefl _ (same ▸ before))
  exact pairwise_mergeSort_descending (fun file : RankedFile => file.importance.thousandths)
    distinct ordered

/-- The ranking of an import graph is what it has to be, with outlines at hand or without. -/
theorem isRanking_rank (files : FileMap) (given : Option FileMap) :
    IsRanking (build files) given (rank (build files) given) where
  nodup_paths := (paths_rank_perm files given).nodup_iff.2 files.nodup
  mem_paths_iff := by
    intro path
    have keys : (build files).nodes.keys = files.keys := keys_nodes files
    rw [(paths_rank_perm files given).mem_iff, keys]
  ordered := by
    have keys : (build files).nodes.keys = files.keys := keys_nodes files
    rw [keys]
    apply (pairwise_rank files given).imp_of_mem
    rintro first second listed listed' ⟨sorted, ties⟩
    rcases Nat.lt_or_eq_of_le sorted with less | same
    · exact .inl (Importance.value_lt_value less (thousandths_le_of_mem_rank listed))
    · refine .inr ⟨?_, ties same.symm⟩
      rw [Importance.value, Importance.value, Importance.decimal, Importance.decimal, same]
  own_node := by
    intro file listed
    obtain ⟨node, member, rfl⟩ := mem_rank_iff.1 listed
    refine ⟨node, (mem_values_nodes member).1, role_rankedFile .., importance_rankedFile .., ?_⟩
    simp [rankedFile]
  own_counts := by
    rintro file listed outlines outline rfl found
    obtain ⟨node, -, rfl⟩ := mem_rank_iff.1 listed
    rw [path_rankedFile] at found
    simp [rankedFile, found, Outline.exportCount, List.countP_eq_length_filter]
  no_counts := by
    intro file listed absent
    obtain ⟨node, -, rfl⟩ := mem_rank_iff.1 listed
    have none : (given.bind (·.get? node.path)).join = none := by
      cases given with
      | none => rfl
      | some outlines => exact absent outlines rfl
    simp [rankedFile, none]

/-! ### Importance and importers -/

/-- Importance lies between zero and one and follows the importers.  Of two files, one with no more
importers than the other has no greater importance, if both have the same role, or the one is a test,
or the other is an entry; as decimals of three places, and as the doubles that stand for them. -/
theorem importance_follows_importers (files : FileMap) (given : Option FileMap) :
    (∀ file ∈ rank (build files) given,
      (0 ≤ file.importance.decimal ∧ file.importance.decimal ≤ 1) ∧
        0 ≤ file.importance.value ∧ file.importance.value ≤ 1) ∧
    ∀ file ∈ rank (build files) given, ∀ file' ∈ rank (build files) given, ∀ node node',
      (build files).nodes.get? file.path = some node →
      (build files).nodes.get? file'.path = some node' →
      node.inDegree ≤ node'.inDegree →
      (file.role = file'.role ∨ file.role = .test ∨ file'.role = .entry) →
      file.importance.decimal ≤ file'.importance.decimal ∧
        file.importance.value ≤ file'.importance.value := by
  constructor
  · intro file listed
    have unit := Importance.decimal_mem_unit (thousandths_le_of_mem_rank listed)
    exact ⟨unit, double_mem_unit unit.1 unit.2⟩
  · intro file listed file' listed' node node' found found' ordered roles
    obtain ⟨own, member, rfl⟩ := mem_rank_iff.1 listed
    obtain ⟨own', member', rfl⟩ := mem_rank_iff.1 listed'
    cases (mem_values_nodes member).1.symm.trans found
    cases (mem_values_nodes member').1.symm.trans found'
    rw [role_rankedFile, role_rankedFile] at roles
    have scores := score_le ordered (inDegree_le_maxInDegree member') roles
    have thousandths := Importance.thousandths_ofScore_mono (score_mem_unit ..).1 scores
    have unit := thousandths_le_of_mem_rank listed'
    rw [importance_rankedFile] at unit
    rw [importance_rankedFile, importance_rankedFile]
    exact ⟨Importance.decimal_mono thousandths, Importance.value_mono thousandths unit⟩

/-- A package that is imported once, and a test helper that is too. -/
def testedFiles : FileMap where
  entries := [("tests/base.py", some { language := "python" }),
    ("app/core.py", some { language := "python" }),
    ("app/main.py", some { language := "python", imports := ["./core", "../tests/base"] })]
  nodup := by decide

/-- The helper is ranked below the package. -/
theorem importance_follows_importers_testedFiles :
    ∃ file ∈ rank (build testedFiles) none, ∃ file' ∈ rank (build testedFiles) none,
      file.path = "tests/base.py" ∧ file.role = .test ∧ file'.path = "app/core.py" ∧
        file'.role = .core ∧ file.importance.decimal ≤ file'.importance.decimal ∧
        file.importance.value ≤ file'.importance.value ∧
        file.importance = ⟨210⟩ ∧ file'.importance = ⟨750⟩ := by
  let node : Node := ⟨"tests/base.py", [], [], ["app/main.py"]⟩
  let node' : Node := ⟨"app/core.py", [], [], ["app/main.py"]⟩
  let file : RankedFile := ⟨"tests/base.py", ⟨210⟩, .test, none, 0, 0⟩
  let file' : RankedFile := ⟨"app/core.py", ⟨750⟩, .core, none, 0, 0⟩
  have listed : file ∈ rank (build testedFiles) none :=
    mem_rank_iff.2 ⟨node, by decide +kernel, by decide +kernel⟩
  have listed' : file' ∈ rank (build testedFiles) none :=
    mem_rank_iff.2 ⟨node', by decide +kernel, by decide +kernel⟩
  have follows := (importance_follows_importers testedFiles none).2 file listed file' listed'
    node node' (by decide +kernel) (by decide +kernel) (by decide) (.inr (.inl rfl))
  exact ⟨file, listed, file', listed', rfl, rfl, rfl, rfl, follows.1, follows.2, rfl, rfl⟩

end RepoAtlas.Ranking
