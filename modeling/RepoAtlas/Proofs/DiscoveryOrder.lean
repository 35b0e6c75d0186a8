/-
Module: RepoAtlas.Proofs.DiscoveryOrder
Purpose: The order in which files are discovered decides about order alone.
  A specifier means the same file whatever the order of the known ones, so each file has the same
  targets and the same unresolved specifiers.  Edges, importers, hubs and ranked files are then the
  same up to their order, and so are the numbers computed from them.
Main exports: resolve_congr, Node.Agrees, Graph.Agrees, edges_perm, agrees_build, rank_perm,
  discovery_order_decides_order_alone
-/
import RepoAtlas.Proofs.FileConservation

namespace RepoAtlas

namespace Imports

/-! ### Resolution -/

/-- What a specifier means depends on which files are known, and not on their order. -/
theorem resolve_congr {known known' : List String} (same : ∀ path, path ∈ known ↔ path ∈ known')
    (specifier importer : String) :
    resolve specifier importer known = resolve specifier importer known' := by
  have alike : known.contains = known'.contains := by
    funext path
    rw [Bool.eq_iff_iff, List.contains_iff_mem, List.contains_iff_mem, same]
  simp only [resolve, alike]

/-! ### Graphs up to order -/

/-- Whether two nodes differ at most in the order of their importers. -/
structure Node.Agrees (node other : Node) : Prop where
  path : node.path = other.path
  imports : node.imports = other.imports
  unresolved : node.unresolved = other.unresolved
  importedBy : node.importedBy.Perm other.importedBy

/-- Whether two graphs differ at most in the order of their edges, nodes, importers and hubs. -/
structure Graph.Agrees (graph other : Graph) : Prop where
  edges : graph.edges.Perm other.edges
  nodes : ∀ path, Option.Rel Node.Agrees (graph.nodes.get? path) (other.nodes.get? path)
  hubs : (graph.hubs.map Node.path).Perm (other.hubs.map Node.path)
  maxInDegree : graph.maxInDegree = other.maxInDegree

theorem values_nodes (files : FileMap) :
    (nodes files).values = files.entries.map (fun entry => nodeHere files entry.1 entry.2) := by
  rw [nodes_eq, OrderedMap.values, OrderedMap.mapWithKey, List.map_map]
  rfl

variable {files others : FileMap}

section Reordered

variable (reordered : files.entries.Perm others.entries)

include reordered

theorem resolve_reordered (specifier importer : String) :
    resolve specifier importer files.keys = resolve specifier importer others.keys :=
  resolve_congr (fun _ => (reordered.map Prod.fst).mem_iff) specifier importer

/-- Each file has its targets in the same order. -/
theorem targets_reordered (source : String) (outline : Option Outline) :
    targets files.keys source outline = targets others.keys source outline := by
  simp only [targets, resolve_reordered reordered]

theorem edges_perm : (edges files).Perm (edges others) := by
  rw [edges_eq, edges_eq]
  simp only [targets_reordered reordered]
  exact reordered.flatMap_right _

theorem nodeHere_agrees (path : String) (outline : Option Outline) :
    (nodeHere files path outline).Agrees (nodeHere others path outline) where
  path := rfl
  imports := rfl
  unresolved := by simp only [nodeHere, unresolved, resolve_reordered reordered]
  importedBy := ((edges_perm reordered).filter _).map _

theorem inDegree_reordered (path : String) (outline : Option Outline) :
    (nodeHere files path outline).inDegree = (nodeHere others path outline).inDegree :=
  (nodeHere_agrees reordered path outline).importedBy.length_eq

theorem edgesInto_reordered (path : String) :
    (build files).edgesInto path = (build others).edgesInto path :=
  ((edges_perm reordered).filter _).length_eq

/-- Both graphs have a path among their hubs if one of them has, because hubs are told by the number
of edges into them. -/
theorem hubs_perm :
    ((build files).hubs.map Node.path).Perm ((build others).hubs.map Node.path) := by
  apply (List.perm_ext_iff_of_nodup (nodup_paths_hubs_build files)
    (nodup_paths_hubs_build others)).2
  intro path
  rw [mem_paths_hubs_build_iff, mem_paths_hubs_build_iff, edgesInto_reordered reordered]

/-- What is said of the nodes of both graphs alike is said up to order. -/
theorem map_values_nodes_perm {α : Type} {view view' : Node → α}
    (alike : ∀ path outline, view (nodeHere files path outline) =
      view' (nodeHere others path outline)) :
    ((nodes files).values.map view).Perm ((nodes others).values.map view') := by
  rw [values_nodes, values_nodes, List.map_map, List.map_map]
  have same : view ∘ (fun entry => nodeHere files entry.1 entry.2) =
      view' ∘ (fun entry : String × Option Outline => nodeHere others entry.1 entry.2) :=
    funext (fun entry => alike entry.1 entry.2)
  rw [same]
  exact reordered.map _

theorem maxInDegree_reordered : (build files).maxInDegree = (build others).maxInDegree := by
  have degrees := map_values_nodes_perm reordered (inDegree_reordered reordered)
  exact degrees.foldl_eq' (fun _ _ _ _ _ => Nat.max_right_comm ..) 0

theorem agrees_build : (build files).Agrees (build others) where
  edges := edges_perm reordered
  nodes := by
    intro path
    rw [get?_build_nodes, get?_build_nodes, OrderedMap.get?_eq_of_perm reordered]
    cases others.get? path with
    | none => exact .none
    | some outline => exact .some (nodeHere_agrees reordered path outline)
  hubs := hubs_perm reordered
  maxInDegree := maxInDegree_reordered reordered

end Reordered

end Imports

namespace Ranking

open Imports

variable {files others : FileMap}

/-! ### Ranking -/

/-- Whether two rankings list the same files up to order, and give each path the same importance,
role, imports and counts. -/
structure RankingsAgree (ranking other : List RankedFile) : Prop where
  perm : ranking.Perm other
  eq_of_path : ∀ file ∈ ranking, ∀ file' ∈ other, file.path = file'.path → file = file'

/-- The ranked files are the same up to order, if the outlines that the counts are taken from are
the same path by path. -/
theorem rank_perm (reordered : files.entries.Perm others.entries) {given given' : Option FileMap}
    (alike : ∀ path, (given.bind (·.get? path)).join = (given'.bind (·.get? path)).join) :
    (rank (build files) given).Perm (rank (build others) given') := by
  have entries : ∀ path outline,
      rankedFile (build files).maxInDegree (given.bind (·.get? path)).join
          (nodeHere files path outline) =
        rankedFile (build others).maxInDegree (given'.bind (·.get? path)).join
          (nodeHere others path outline) := by
    intro path outline
    simp only [rankedFile, maxInDegree_reordered reordered, inDegree_reordered reordered, alike]
    rfl
  exact ((List.mergeSort_perm _ _).trans (map_values_nodes_perm reordered entries)).trans
    (List.mergeSort_perm _ _).symm

theorem rankingsAgree_rank (reordered : files.entries.Perm others.entries)
    {given given' : Option FileMap}
    (alike : ∀ path, (given.bind (·.get? path)).join = (given'.bind (·.get? path)).join) :
    RankingsAgree (rank (build files) given) (rank (build others) given') where
  perm := rank_perm reordered alike
  eq_of_path := by
    -- Both files are in the second ranking, and it has no path twice.
    intro file listed file' listed' same
    have once : ((rank (build others) given').map RankedFile.path).Nodup :=
      (paths_rank_perm others given').nodup_iff.2 others.nodup
    exact List.inj_on_of_nodup_map once ((rank_perm reordered alike).subset listed) listed' same

end Ranking

open Imports Ranking

/-- Discovery order affects only order.  Whatever the order in which the same files are discovered,
the import graphs have the same edges, importers, unresolved specifiers, hubs and largest number of
importers, and every path is ranked with the same importance, role, imports and counts, with outlines
at hand or without. -/
theorem discovery_order_decides_order_alone {files others : FileMap}
    (reordered : files.entries.Perm others.entries) :
    (build files).Agrees (build others) ∧
      RankingsAgree (rank (build files) (some files)) (rank (build others) (some others)) ∧
      RankingsAgree (rank (build files) none) (rank (build others) none) := by
  refine ⟨agrees_build reordered, ?_, rankingsAgree_rank reordered (fun _ => rfl)⟩
  apply rankingsAgree_rank reordered
  intro path
  exact congrArg Option.join (OrderedMap.get?_eq_of_perm reordered path)

/-- The three files that import a fourth, discovered the other way round. -/
def sharedReversed : FileMap where
  entries := sharedFiles.entries.reverse
  nodup := by decide

/-- Their edges stand in another order, and all else is said alike. -/
theorem discovery_order_of_sharedReversed :
    sharedFiles.entries.Perm sharedReversed.entries ∧
      (build sharedFiles).edges ≠ (build sharedReversed).edges ∧
      (build sharedFiles).Agrees (build sharedReversed) ∧
      RankingsAgree (rank (build sharedFiles) (some sharedFiles))
        (rank (build sharedReversed) (some sharedReversed)) := by
  have reordered : sharedFiles.entries.Perm sharedReversed.entries :=
    (List.reverse_perm sharedFiles.entries).symm
  obtain ⟨graphs, rankings, _⟩ := discovery_order_decides_order_alone reordered
  exact ⟨reordered, by decide, graphs, rankings⟩

end RepoAtlas
