/-
Module: RepoAtlas.Proofs.HubViews
Purpose: The hubs of a repository are the same files wherever a survey shows them.
  The import graph sorts them by the number of edges into them; the overview lists them with that
  number, the directory tree marks the nodes at their paths with it, and the architecture marks the
  first twenty of them.
Main exports: Imports.Graph.edgesInto, HubsAgree, mem_hubs_build_iff, pairwise_hubs_build,
  hub_marks_perm, isHub_build_iff, marked_paths_perm, hubs_agree
-/
import RepoAtlas.Analysis.Survey
import RepoAtlas.Proofs.ArchitectureGraph
import RepoAtlas.Proofs.DirectoryRoutes

namespace RepoAtlas

/-- The number of edges into a path. -/
def Imports.Graph.edgesInto (graph : Imports.Graph) (path : String) : Nat :=
  (graph.edges.filter (fun edge => edge.target = path)).length

/-- What the views of the hubs in a survey say.  Hubs are the files with at least three edges into
them, most imported first and equals in discovery order; overview and directory tree show the same
files with the same numbers, and the architecture marks the first twenty, each at one node, so that
no unmarked file has more importers than a marked one. -/
structure HubsAgree (files : FileMap) (survey : Survey) : Prop where
  mem_hubs_iff : ∀ node, node ∈ survey.imports.hubs ↔
    node ∈ survey.imports.nodes.values ∧ 3 ≤ survey.imports.edgesInto node.path
  hubs_ordered : survey.imports.hubs.Pairwise (fun first second =>
    survey.imports.edgesInto second.path ≤ survey.imports.edgesInto first.path ∧
      (survey.imports.edgesInto first.path = survey.imports.edgesInto second.path →
        files.keys.idxOf first.path < files.keys.idxOf second.path))
  overview_eq : survey.overview.hubs.map (fun hub => (hub.path, hub.importerCount)) =
    survey.imports.hubs.map (fun hub => (hub.path, survey.imports.edgesInto hub.path))
  tree_isHub_iff : ∀ node ∈ survey.overview.directoryTree.nodes,
    node.isHub = true ↔ node.path ∈ survey.overview.hubs.map Overview.Hub.path
  tree_perm : ((survey.overview.directoryTree.nodes.filter Overview.DirectoryNode.isHub).map
      (fun node => (node.path, node.hubCount))).Perm
    (survey.overview.hubs.map (fun hub => (hub.path, some (hub.importerCount : Int))))
  marked_iff : ∀ node ∈ survey.architecture.nodes,
    node.isHub = true ↔ node.path ∈ (survey.imports.hubs.take 20).map Imports.Node.path
  marked_perm : ((survey.architecture.nodes.filter Architecture.Node.isHub).map
      Architecture.Node.path).Perm
    ((survey.imports.hubs.take 20).map Imports.Node.path)
  unmarked_le_marked : ∀ marked ∈ survey.architecture.nodes, marked.isHub = true →
    ∀ unmarked ∈ survey.architecture.nodes, unmarked.isHub = false →
      survey.imports.edgesInto unmarked.path ≤ survey.imports.edgesInto marked.path

namespace Imports

variable {files : FileMap}

/-! ### Hubs of the import graph -/

theorem mem_values_nodes {node : Node} (member : node ∈ (nodes files).values) :
    (nodes files).get? node.path = some node ∧
      node.inDegree = (build files).edgesInto node.path := by
  obtain ⟨⟨path, _⟩, listed, rfl⟩ := List.mem_map.1 member
  have found := ((nodes files).get?_eq_some_iff _ _).2 listed
  obtain ⟨outline, _, rfl⟩ := get?_nodes path _ found
  refine ⟨found, ?_⟩
  simp [Node.inDegree, importers, Graph.edgesInto, build]

theorem paths_values_nodes (files : FileMap) :
    (nodes files).values.map Node.path = files.keys := by
  simp [nodes, OrderedMap.values, OrderedMap.keys, OrderedMap.mapWithKey, Function.comp_def]

theorem pairwise_values_nodes (files : FileMap) :
    (nodes files).values.Pairwise (fun first second =>
      files.keys.idxOf first.path < files.keys.idxOf second.path) := by
  have ordered : files.keys.Pairwise _ := pairwise_idxOf_of_nodup files.nodup
  rw [← paths_values_nodes files, List.pairwise_map] at ordered
  rwa [paths_values_nodes] at ordered

theorem nodup_values_nodes (files : FileMap) : (nodes files).values.Nodup := by
  apply (pairwise_values_nodes files).imp
  rintro first second before rfl
  exact Nat.lt_irrefl _ before

/-- The hubs are the nodes with enough edges into them. -/
theorem mem_hubs_build_iff (node : Node) :
    node ∈ (build files).hubs ↔
      node ∈ (nodes files).values ∧ hubThreshold ≤ (build files).edgesInto node.path := by
  change node ∈ (byInDegree (nodes files).values).filter _ ↔ _
  rw [List.mem_filter, byInDegree, List.mem_mergeSort, decide_eq_true_eq]
  apply and_congr_right
  intro member
  rw [(mem_values_nodes member).2]

/-- Hubs stand with the most imported first, and equals in discovery order. -/
theorem pairwise_hubs_build (files : FileMap) :
    (build files).hubs.Pairwise (fun first second =>
      (build files).edgesInto second.path ≤ (build files).edgesInto first.path ∧
        ((build files).edgesInto first.path = (build files).edgesInto second.path →
          files.keys.idxOf first.path < files.keys.idxOf second.path)) := by
  have sorted := pairwise_mergeSort_descending Node.inDegree (nodup_values_nodes files)
    (pairwise_values_nodes files)
  have hubs : (build files).hubs.Pairwise _ := sorted.filter _
  apply hubs.imp_of_mem
  rintro first second listed listed' ordered
  have degree := (mem_values_nodes ((mem_hubs_build_iff first).1 listed).1).2
  have degree' := (mem_values_nodes ((mem_hubs_build_iff second).1 listed').1).2
  rwa [← degree, ← degree']

theorem nodup_paths_hubs_build (files : FileMap) :
    ((build files).hubs.map Node.path).Nodup := by
  rw [List.Nodup, List.pairwise_map]
  apply (pairwise_hubs_build files).imp
  rintro first second ⟨_, ties⟩ same
  rw [same] at ties
  exact Nat.lt_irrefl _ (ties rfl)

/-- Edges lead to discovered files only. -/
theorem mem_keys_of_edgesInto {path : String} (some_edge : 0 < (build files).edgesInto path) :
    path ∈ files.keys := by
  obtain ⟨edge, member⟩ := List.exists_mem_of_length_pos some_edge
  obtain ⟨listed, same⟩ := List.mem_filter.1 member
  rw [← of_decide_eq_true same]
  exact (mem_keys_of_mem_edges listed).2

/-- A path is that of a hub exactly when there are enough edges into it. -/
theorem mem_paths_hubs_build_iff (path : String) :
    path ∈ (build files).hubs.map Node.path ↔ hubThreshold ≤ (build files).edgesInto path := by
  rw [List.mem_map]
  constructor
  · rintro ⟨hub, listed, rfl⟩
    exact ((mem_hubs_build_iff hub).1 listed).2
  · intro many
    have known := mem_keys_of_edgesInto (lt_of_lt_of_le (by decide) many)
    rw [← paths_values_nodes files] at known
    obtain ⟨node, member, rfl⟩ := List.mem_map.1 known
    exact ⟨node, (mem_hubs_build_iff node).2 ⟨member, many⟩, rfl⟩

/-- No specifier means the root of the repository itself. -/
theorem resolve_ne_root (specifier importer : String) (known : List String) :
    resolve specifier importer known ≠ some "." := by
  have apart (path : String) : "." ∉ candidates path := by
    unfold candidates
    split
    · decide
    · next different =>
      have longer (suffix : String) (long : 1 < suffix.length) : path ++ suffix ≠ "." := by
        intro same
        have lengths : (path ++ suffix).length = 1 := congrArg String.length same
        rw [String.length_append] at lengths
        omega
      have extended : ∀ extension ∈ extensions, 1 < extension.length := by decide
      have indexed : ∀ file ∈ indexFiles, 1 < ("/" ++ file).length := by decide
      intro member
      rcases List.mem_append.1 member with plain | index
      · rcases List.mem_cons.1 plain with same | extension
        · exact different same.symm
        · obtain ⟨suffix, listed, same⟩ := List.mem_map.1 extension
          exact longer suffix (extended suffix listed) same
      · obtain ⟨file, listed, same⟩ := List.mem_map.1 index
        rw [String.append_assoc] at same
        exact longer ("/" ++ file) (indexed file listed) same
  intro resolved
  unfold resolve at resolved
  split at resolved
  · simp only at resolved
    split at resolved
    · cases resolved
    · exact apart _ (List.mem_of_find?_eq_some resolved)
  · cases resolved

theorem edgesInto_root (files : FileMap) : (build files).edgesInto "." = 0 := by
  rw [Graph.edgesInto, List.length_eq_zero_iff, List.filter_eq_nil_iff]
  intro edge member
  obtain ⟨_, _, _, _, _, resolved⟩ := (mem_edges_iff edge.source edge.target).1 member
  rw [decide_eq_true_eq]
  intro same
  exact resolve_ne_root _ _ _ (same ▸ resolved)

end Imports

namespace Overview

open Imports

variable {files : FileMap}

/-! ### Hubs in the overview and the directory tree -/

/-- The overview lists the hubs of the graph, with the number of edges into each. -/
theorem map_hubs_build {α : Type} (view : String × Nat → α) (nodes : List Architecture.Node) :
    (hubs (Imports.build files) nodes).map (fun hub => view (hub.path, hub.importerCount)) =
      (Imports.build files).hubs.map
        (fun hub => view (hub.path, (Imports.build files).edgesInto hub.path)) := by
  rw [hubs, List.map_map]
  apply List.map_congr_left
  intro hub listed
  have member := ((mem_hubs_build_iff hub).1 listed).1
  exact congrArg (fun degree => view (hub.path, degree)) (mem_values_nodes member).2

/-- The tree records the number of edges into each path that has any. -/
theorem importerCount?_build (path : String) :
    importerCount? (Imports.build files) path =
      if 0 < (Imports.build files).edgesInto path then
        some ((Imports.build files).edgesInto path : Int)
      else none := by
  unfold importerCount?
  split
  · next node found =>
    have listed := ((Imports.nodes files).get?_eq_some_iff _ _).1 found
    obtain ⟨_, _, place⟩ := get?_nodes path node found
    obtain ⟨_, degree⟩ := mem_values_nodes (List.mem_map_of_mem (f := Prod.snd) listed)
    have here : node.path = path := by rw [place]
    rw [here] at degree
    rw [degree]
  · next absent =>
    have unknown := ((Imports.nodes files).get?_eq_none_iff path).1 absent
    rw [keys_nodes] at unknown
    rw [if_neg (fun some_edge => unknown (mem_keys_of_edgesInto some_edge))]

/-- Whether enough importers are recorded for a path. -/
theorem isHub_importerCount?_iff (path : String) :
    (importerCount? (Imports.build files) path).any
        (fun count => (hubThreshold : Int) ≤ count) = true ↔
      hubThreshold ≤ (Imports.build files).edgesInto path := by
  rw [importerCount?_build]
  split
  · simp
  · next none =>
    simp only [Option.any_none, Bool.false_eq_true, false_iff, not_le]
    exact lt_of_le_of_lt (not_lt.1 none) (by decide)

theorem importerCount?_of_hub {path : String}
    (many : hubThreshold ≤ (Imports.build files).edgesInto path) :
    importerCount? (Imports.build files) path =
      some ((Imports.build files).edgesInto path : Int) := by
  rw [importerCount?_build, if_pos (lt_of_lt_of_le (by decide) many)]

/-- The tree of the discovered files. -/
abbrev treeHere (files : FileMap) : DirectoryNode :=
  treeOf files.keys (importerCount? (Imports.build files))

theorem hubCount_of_mem_nodesOf {node : DirectoryNode}
    (member : node ∈ nodesOf (treeHere files).children) :
    node.hubCount = importerCount? (Imports.build files) node.path :=
  hubCount_of_mem_treeOf member

/-- The tree has a node at each discovered path without empty segments. -/
theorem exists_node_at {path : String} (known : path ∈ files.keys)
    (filled : "" ∉ Text.splitText '/' path) :
    ∃ node ∈ nodesOf (treeHere files).children, node.path = path := by
  have some_segment : segments path ≠ [] := by
    intro none
    have empty := pathOf_segments filled
    rw [none] at empty
    exact filled (empty ▸ by decide)
  have route : segments path ∈ routesOf [] (treeHere files).children :=
    (mem_routesOf_treeOf _ _ _).2 ⟨path, known, some_segment, List.prefix_refl _⟩
  have mark := List.mem_map_of_mem (f := markAt (importerCount? (Imports.build files))) route
  rw [← map_mark_nodesOf _ (areSiblings_treeOf _ _).placed] at mark
  obtain ⟨node, member, same⟩ := List.mem_map.1 mark
  exact ⟨node, member, (Prod.mk.inj same).1.trans (pathOf_segments filled)⟩

/-- The hubs of the tree are its nodes at the paths of hubs; the root is at none of them. -/
theorem isHub_treeHere_iff {node : DirectoryNode} (member : node ∈ (treeHere files).nodes) :
    node.isHub = true ↔ hubThreshold ≤ (Imports.build files).edgesInto node.path := by
  rw [nodes_treeOf] at member
  rcases List.mem_cons.1 member with rfl | below
  · have root : (Imports.build files).edgesInto (treeHere files).path = 0 := edgesInto_root files
    have unmarked : (treeHere files).isHub = false := rfl
    simp [root, unmarked, hubThreshold]
  · rw [DirectoryNode.isHub, hubCount_of_mem_nodesOf below]
    exact isHub_importerCount?_iff node.path

/-- The hubs of the tree are the hubs of the graph, each once, with the number of edges into it. -/
theorem hub_marks_perm (proper : ∀ path ∈ files.keys, "" ∉ Text.splitText '/' path) :
    (((treeHere files).nodes.filter DirectoryNode.isHub).map DirectoryNode.mark).Perm
      ((Imports.build files).hubs.map
        (fun hub => (hub.path, some ((Imports.build files).edgesInto hub.path : Int)))) := by
  have below : (treeHere files).nodes.filter DirectoryNode.isHub =
      (nodesOf (treeHere files).children).filter DirectoryNode.isHub := by
    rw [nodes_treeOf]
    exact List.filter_cons_of_neg Bool.false_ne_true
  have distinct : (((nodesOf (treeHere files).children).filter DirectoryNode.isHub).map
      DirectoryNode.mark).Nodup :=
    (List.filter_sublist.map _).nodup (nodup_marks_treeOf _ _)
  have distinct' : ((Imports.build files).hubs.map (fun hub =>
      (hub.path, some ((Imports.build files).edgesInto hub.path : Int)))).Nodup := by
    apply List.Nodup.of_map Prod.fst
    rw [List.map_map]
    exact nodup_paths_hubs_build files
  rw [below]
  apply (List.perm_ext_iff_of_nodup distinct distinct').2
  intro mark
  rw [List.mem_map, List.mem_map]
  constructor
  · rintro ⟨node, member, rfl⟩
    obtain ⟨listed, marked⟩ := List.mem_filter.1 member
    have many := (isHub_treeHere_iff (List.mem_cons_of_mem _ listed)).1 marked
    obtain ⟨hub, hubListed, here⟩ := List.mem_map.1 ((mem_paths_hubs_build_iff node.path).2 many)
    refine ⟨hub, hubListed, ?_⟩
    rw [DirectoryNode.mark, hubCount_of_mem_nodesOf listed, here, importerCount?_of_hub many]
  · rintro ⟨hub, listed, rfl⟩
    have many := ((mem_hubs_build_iff hub).1 listed).2
    have known := mem_keys_of_edgesInto (lt_of_lt_of_le (by decide) many)
    obtain ⟨node, there, here⟩ := exists_node_at known (proper hub.path known)
    have marked : node.isHub = true :=
      (isHub_treeHere_iff (List.mem_cons_of_mem _ there)).2 (here ▸ many)
    refine ⟨node, List.mem_filter.2 ⟨there, marked⟩, ?_⟩
    rw [DirectoryNode.mark, hubCount_of_mem_nodesOf there, here, importerCount?_of_hub many]

end Overview

namespace Architecture

open Imports

variable {files : FileMap}

/-! ### Hubs in the architecture -/

theorem isHub_build_iff {node : Architecture.Node}
    (member : node ∈ (build files (Imports.build files)).nodes) :
    node.isHub = true ↔
      node.path ∈ ((Imports.build files).hubs.take markedHubs).map Imports.Node.path := by
  obtain ⟨⟨path, outline⟩, _, rfl⟩ := List.mem_map.1 member
  exact List.contains_iff_mem

/-- The marked files are the first hubs, each at one node. -/
theorem marked_paths_perm (files : FileMap) :
    (((build files (Imports.build files)).nodes.filter Node.isHub).map Node.path).Perm
      (((Imports.build files).hubs.take markedHubs).map Imports.Node.path) := by
  have distinct :
      (((build files (Imports.build files)).nodes.filter Node.isHub).map Node.path).Nodup := by
    apply (List.filter_sublist.map Node.path).nodup
    rw [paths_nodes_build]
    exact files.nodup
  have distinct' : (((Imports.build files).hubs.take markedHubs).map Imports.Node.path).Nodup :=
    ((List.take_sublist _ _).map _).nodup (nodup_paths_hubs_build files)
  apply (List.perm_ext_iff_of_nodup distinct distinct').2
  intro path
  rw [List.mem_map]
  constructor
  · rintro ⟨node, member, rfl⟩
    obtain ⟨listed, marked⟩ := List.mem_filter.1 member
    exact (isHub_build_iff listed).1 marked
  · intro first
    obtain ⟨hub, early, rfl⟩ := List.mem_map.1 first
    have many := ((mem_hubs_build_iff hub).1 (List.mem_of_mem_take early)).2
    have known := mem_keys_of_edgesInto (lt_of_lt_of_le (by decide) many)
    rw [← paths_nodes_build files (Imports.build files)] at known
    obtain ⟨node, listed, here⟩ := List.mem_map.1 known
    have marked := (isHub_build_iff listed).2 (here ▸ first)
    exact ⟨node, List.mem_filter.2 ⟨listed, marked⟩, here⟩

/-- A file that is not marked has no more importers than a marked one: it is a later hub, or none. -/
theorem edgesInto_le_of_unmarked {marked unmarked : Architecture.Node}
    (member : marked ∈ (build files (Imports.build files)).nodes) (hub : marked.isHub = true)
    (member' : unmarked ∈ (build files (Imports.build files)).nodes)
    (other : unmarked.isHub = false) :
    (Imports.build files).edgesInto unmarked.path ≤ (Imports.build files).edgesInto marked.path := by
  obtain ⟨first, early, here⟩ := List.mem_map.1 ((isHub_build_iff member).1 hub)
  rw [← here]
  by_cases many : hubThreshold ≤ (Imports.build files).edgesInto unmarked.path
  · obtain ⟨second, listed, there⟩ := List.mem_map.1 ((mem_paths_hubs_build_iff _).2 many)
    have late : second ∈ (Imports.build files).hubs.drop markedHubs := by
      rw [← List.take_append_drop markedHubs (Imports.build files).hubs] at listed
      refine (List.mem_append.1 listed).resolve_left (fun taken => ?_)
      have marked' := (isHub_build_iff member').2 (there ▸ List.mem_map_of_mem taken)
      rw [marked'] at other
      cases other
    have ordered := pairwise_hubs_build files
    rw [← List.take_append_drop markedHubs (Imports.build files).hubs, List.pairwise_append]
      at ordered
    rw [← there]
    exact (ordered.2.2 first early second late).1
  · have enough := ((mem_hubs_build_iff first).1 (List.mem_of_mem_take early)).2
    omega

end Architecture

/-- All views of the hubs agree in the survey of files whose paths have no empty segment. -/
theorem hubs_agree (name repositoryPath : String) (files : FileMap)
    (proper : ∀ path ∈ files.keys, path ≠ "" ∧ "" ∉ Text.splitText '/' path) :
    HubsAgree files (Survey.ofFiles name repositoryPath files) := by
  constructor
  case mem_hubs_iff => exact Imports.mem_hubs_build_iff
  case hubs_ordered => exact Imports.pairwise_hubs_build files
  case overview_eq => exact Overview.map_hubs_build id _
  case tree_isHub_iff =>
    intro node member
    have paths : (Survey.ofFiles name repositoryPath files).overview.hubs.map Overview.Hub.path =
        (Imports.build files).hubs.map Imports.Node.path := Overview.map_hubs_build Prod.fst _
    rw [paths, Imports.mem_paths_hubs_build_iff]
    exact Overview.isHub_treeHere_iff member
  case tree_perm =>
    have listed := Overview.hub_marks_perm (fun path known => (proper path known).2)
    rwa [← Overview.map_hubs_build (fun hub => (hub.1, some (hub.2 : Int)))] at listed
  case marked_iff =>
    intro node
    exact Architecture.isHub_build_iff
  case marked_perm => exact Architecture.marked_paths_perm files
  case unmarked_le_marked =>
    intro marked member hub unmarked member' other
    exact Architecture.edgesInto_le_of_unmarked member hub member' other

/-- Three files that import a fourth. -/
def sharedFiles : FileMap :=
  let importing : Option Outline := some { language := "python", imports := ["./shared"] }
  { entries := [("lib/shared.py", some { language := "python" }), ("lib/first.py", importing),
      ("lib/second.py", importing), ("lib/third.py", importing)]
    nodup := by decide }

/-- The imported file is a hub of the graph, with three edges into it, and is marked as such in the
directory tree and the architecture. -/
theorem hubs_agree_sharedFiles :
    let survey := Survey.ofFiles "shared" "/shared" sharedFiles
    HubsAgree sharedFiles survey ∧ survey.imports.edgesInto "lib/shared.py" = 3 ∧
      (∃ hub ∈ survey.imports.hubs, hub.path = "lib/shared.py") ∧
      (∃ node ∈ survey.overview.directoryTree.nodes,
        node.path = "lib/shared.py" ∧ node.isHub = true ∧ node.hubCount = some 3) ∧
      ∃ node ∈ survey.architecture.nodes, node.path = "lib/shared.py" ∧ node.isHub = true := by
  intro survey
  have agree : HubsAgree sharedFiles survey :=
    hubs_agree "shared" "/shared" sharedFiles (by decide)
  have edges : survey.imports.edgesInto "lib/shared.py" = 3 := by
    change ((Imports.edges sharedFiles).filter _).length = 3
    rw [Imports.edges_eq]
    decide
  let hub : Imports.Node :=
    { path := "lib/shared.py", importedBy := ["lib/first.py", "lib/second.py", "lib/third.py"] }
  have known : hub ∈ survey.imports.nodes.values := by
    change hub ∈ (Imports.nodes sharedFiles).values
    rw [Imports.nodes_eq]
    decide
  have listed : hub ∈ survey.imports.hubs := (agree.mem_hubs_iff hub).2 ⟨known, edges.ge⟩
  refine ⟨agree, edges, ⟨hub, listed, rfl⟩, ?_, ?_⟩
  · have counted : ("lib/shared.py", 3) ∈
        survey.overview.hubs.map (fun hub => (hub.path, hub.importerCount)) := by
      rw [agree.overview_eq]
      exact List.mem_map.2 ⟨hub, listed, by rw [edges]⟩
    obtain ⟨view, viewed, same⟩ := List.mem_map.1 counted
    obtain ⟨viewedPath, viewedCount⟩ := Prod.mk.inj same
    obtain ⟨node, member, same⟩ := List.mem_map.1
      (agree.tree_perm.mem_iff.2 (List.mem_map.2 ⟨view, viewed, rfl⟩))
    obtain ⟨nodePath, nodeCount⟩ := Prod.mk.inj same
    obtain ⟨there, marked⟩ := List.mem_filter.1 member
    rw [viewedCount] at nodeCount
    exact ⟨node, there, nodePath.trans viewedPath, marked, nodeCount⟩
  · have few : survey.imports.hubs.length ≤ 20 := by
      apply (List.length_filter_le _ _).trans
      rw [Imports.byInDegree, List.length_mergeSort]
      decide
    have early : hub.path ∈ (survey.imports.hubs.take 20).map Imports.Node.path := by
      rw [List.take_of_length_le few]
      exact List.mem_map_of_mem listed
    obtain ⟨node, member, here⟩ := List.mem_map.1 (agree.marked_perm.mem_iff.2 early)
    obtain ⟨there, marked⟩ := List.mem_filter.1 member
    exact ⟨node, there, here, marked⟩

end RepoAtlas
