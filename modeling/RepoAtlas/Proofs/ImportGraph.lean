/-
Module: RepoAtlas.Proofs.ImportGraph
Purpose: The import graph says of every specifier what it means.
  The edges, the importers of each node and its unresolved specifiers are three views of one
  relation: a parsed file imports another when one of its specifiers means it.  The specification
  fixes the members and the order of each view, so it leaves no choice to a graph that meets it.  The
  loops that read the specifiers collect each view apart from the others.
Main exports: IsImport, firstImport, IsImportGraph, targets, unresolved, importers, links_eq,
  edges_eq, mem_edges_iff, pairwise_edges, importers_eq, nodeHere, nodes_eq, get?_build_nodes,
  sum_inDegree_nodes, isImportGraph_build
-/
import RepoAtlas.Imports.Graph
import RepoAtlas.Proofs.CollectedItems

namespace RepoAtlas.Imports

/-! ### What a graph has to say -/

/-- Whether a file imports another one: it was parsed, and one of its specifiers means the other. -/
def IsImport (files : FileMap) (source target : String) : Prop :=
  ∃ outline, files.get? source = some (some outline) ∧ source ≠ target ∧
    ∃ specifier ∈ outline.imports, resolve specifier source files.keys = some target

/-- The place of the first specifier in a file that means another one. -/
def firstImport (files : FileMap) (edge : Edge) : Nat :=
  (specifiers (files.get? edge.source).join).findIdx
    (fun specifier => resolve specifier edge.source files.keys = some edge.target)

/-- What the import graph of the discovered files is.  The edges are the imports, each once, and
never from a file to itself; they stand in discovery order of their sources, and those of one source
in order of first import.  The nodes are the files, each with its importers in discovery order.  No
relative specifier is lost: it is listed as unresolved, or means its own file, or gives an edge. -/
structure IsImportGraph (files : FileMap) (graph : Graph) : Prop where
  nodup_edges : graph.edges.Nodup
  no_self_edge : ∀ edge ∈ graph.edges, edge.source ≠ edge.target
  ends_known : ∀ edge ∈ graph.edges, edge.source ∈ files.keys ∧ edge.target ∈ files.keys
  mem_edges_iff : ∀ source target, ⟨source, target⟩ ∈ graph.edges ↔ IsImport files source target
  sources_ordered : graph.edges.Pairwise (fun first second =>
    files.keys.idxOf first.source ≤ files.keys.idxOf second.source)
  targets_ordered : graph.edges.Pairwise (fun first second =>
    first.source = second.source → firstImport files first < firstImport files second)
  keys_nodes : graph.nodes.keys = files.keys
  importedBy_eq : ∀ path node, graph.nodes.get? path = some node →
    node.importedBy = files.keys.filter (fun source => (⟨source, path⟩ : Edge) ∈ graph.edges)
  sum_inDegree : (graph.nodes.values.map Node.inDegree).sum = graph.edges.length
  unresolved_eq : ∀ path node outline, graph.nodes.get? path = some node →
    files.get? path = some (some outline) →
    node.unresolved = outline.imports.filter (fun specifier =>
      isRelative specifier ∧ resolve specifier path files.keys = none)
  accounted : ∀ path node outline, graph.nodes.get? path = some node →
    files.get? path = some (some outline) →
    ∀ specifier ∈ outline.imports, isRelative specifier = true →
      specifier ∈ node.unresolved ∨ resolve specifier path files.keys = some path ∨
        ∃ target, resolve specifier path files.keys = some target ∧
          ⟨path, target⟩ ∈ graph.edges

/-! ### What the loops collect -/

/-- The other files that a file imports, each once, in order of first import. -/
def targets (known : List String) (source : String) (outline : Option Outline) : List String :=
  (((specifiers outline).filterMap (resolve · source known)).filter (· ≠ source)).eraseDups

/-- The relative specifiers of a file that mean no discovered file. -/
def unresolved (known : List String) (source : String) (outline : Option Outline) : List String :=
  (specifiers outline).filter
    (fun specifier => isRelative specifier && (resolve specifier source known).isNone)

/-- The sources of the edges into a file. -/
def importers (edges : List Edge) (target : String) : List String :=
  (edges.filter (fun edge => edge.target = target)).map Edge.source

variable {files : FileMap}

theorem mem_of_resolve {specifier importer target : String} {known : List String}
    (resolved : resolve specifier importer known = some target) : target ∈ known := by
  unfold resolve at resolved
  split at resolved
  · simp only at resolved
    split at resolved
    · cases resolved
    · simpa using List.find?_some resolved
  · cases resolved

/-- The specifiers of the files with where they stand, in the order in which they are read. -/
def readings (files : FileMap) : List (String × String) :=
  files.entries.flatMap (fun file => (specifiers file.2).map (Prod.mk file.1))

/-- The edge that a specifier gives, if it means another file. -/
def edgeOf? (known : List String) (reading : String × String) : Option Edge :=
  ((resolve reading.2 reading.1 known).filter (· ≠ reading.1)).map (Edge.mk reading.1)

/-- Whether a specifier is relative and means no file. -/
def isLost (known : List String) (reading : String × String) : Bool :=
  isRelative reading.2 && (resolve reading.2 reading.1 known).isNone

/-- The edges that the specifiers give, in the order in which they are read. -/
def givenEdges (files : FileMap) : List Edge :=
  (readings files).filterMap (edgeOf? files.keys)

/-- Reading specifiers adds the edges that they give, and lists the unresolved ones apart. -/
theorem foldl_addSpecifier (known : List String) (readings : List (String × String))
    (links : Links) :
    readings.foldl (fun links reading => links.addSpecifier known reading.1 reading.2) links =
      { digraph := (readings.filterMap (edgeOf? known)).foldl .addEdge links.digraph
        unresolved := OrderedMap.collectInto links.unresolved Prod.fst []
          (fun listed reading => listed ++ [reading.2]) (readings.filter (isLost known)) } := by
  induction readings generalizing links with
  | nil => rfl
  | cons reading rest ih =>
    obtain ⟨source, specifier⟩ := reading
    rw [List.foldl_cons, ih, Links.addSpecifier]
    -- A specifier without a leading dot means nothing, so it neither gives an edge nor is lost.
    cases relative : isRelative specifier with
    | false => simp [edgeOf?, isLost, resolve, relative]
    | true =>
      cases resolved : resolve specifier source known with
      | none => simp [edgeOf?, isLost, relative, resolved, OrderedMap.collectInto]
      | some target =>
        by_cases own : target = source
        · simp [edgeOf?, isLost, relative, resolved, own, Option.filter]
        · simp [edgeOf?, isLost, relative, resolved, own, Option.filter]

theorem addNode_of_mem {graph : Digraph} {path : String}
    (known : path ∈ graph.successors.keys) : graph.addNode path = graph := by
  rw [Digraph.addNode, if_pos ((OrderedMap.contains_eq_true_iff _ _).2 known)]

/-- Edges between nodes that are there are collected under their sources and their targets. -/
theorem foldl_addEdge (edges : List Edge) (graph : Digraph)
    (known : ∀ edge ∈ edges,
      edge.source ∈ graph.successors.keys ∧ edge.target ∈ graph.successors.keys) :
    edges.foldl .addEdge graph =
      { successors := OrderedMap.collectInto graph.successors Edge.source []
          (fun targets edge => addOnce targets edge.target) edges
        predecessors := OrderedMap.collectInto graph.predecessors Edge.target []
          (fun sources edge => addOnce sources edge.source) edges } := by
  induction edges generalizing graph with
  | nil => rfl
  | cons edge rest ih =>
    obtain ⟨⟨source, target⟩, known⟩ := List.forall_mem_cons.1 known
    have added : graph.addEdge edge =
        { successors := graph.successors.alter edge.source [] (addOnce · edge.target)
          predecessors := graph.predecessors.alter edge.target [] (addOnce · edge.source) } := by
      simp only [Digraph.addEdge, addNode_of_mem source, addNode_of_mem target]
    rw [List.foldl_cons, added, ih]
    · rfl
    · simpa [OrderedMap.alter, source] using known

/-- Nodes that are not there are added with no edges. -/
theorem foldl_addNode (paths : List String) (map : OrderedMap String (List String))
    (fresh : (map.keys ++ paths).Nodup) :
    paths.foldl Digraph.addNode ⟨map, map⟩ =
      ⟨(paths.map (fun path => (path, []))).foldl (fun map pair => map.insert pair.1 pair.2) map,
        (paths.map (fun path => (path, []))).foldl (fun map pair => map.insert pair.1 pair.2)
          map⟩ := by
  induction paths generalizing map with
  | nil => rfl
  | cons path rest ih =>
    have absent : path ∉ map.keys := by
      rw [List.nodup_middle, List.nodup_cons] at fresh
      exact fun present => fresh.1 (List.mem_append_left _ present)
    have added : Digraph.addNode ⟨map, map⟩ path = ⟨map.insert path [], map.insert path []⟩ := by
      rw [Digraph.addNode, if_neg (by rwa [OrderedMap.contains_eq_true_iff])]
    rw [List.foldl_cons, added, ih]
    · rfl
    · rwa [OrderedMap.keys_insert, if_neg absent, List.append_assoc]

theorem ends_of_mem_givenEdges {edge : Edge} (member : edge ∈ givenEdges files) :
    edge.source ∈ files.keys ∧ edge.target ∈ files.keys := by
  obtain ⟨reading, listed, given⟩ := List.mem_filterMap.1 member
  obtain ⟨⟨path, outline⟩, found, among⟩ := List.mem_flatMap.1 listed
  obtain ⟨specifier, _, rfl⟩ := List.mem_map.1 among
  obtain ⟨target, meant, rfl⟩ := Option.map_eq_some_iff.1 given
  exact ⟨List.mem_map_of_mem (f := Prod.fst) found,
    mem_of_resolve (Option.filter_eq_some_iff.1 meant).1⟩

/-- What the nested loops over files and specifiers collect. -/
theorem links_eq (files : FileMap) :
    links files =
      { digraph :=
          { successors := OrderedMap.collectInto (files.mapWithKey (fun _ _ => [])) Edge.source []
              (fun targets edge => addOnce targets edge.target) (givenEdges files)
            predecessors := OrderedMap.collectInto (files.mapWithKey (fun _ _ => [])) Edge.target []
              (fun sources edge => addOnce sources edge.source) (givenEdges files) }
        unresolved := OrderedMap.collect Prod.fst []
          (fun listed reading => listed ++ [reading.2])
          ((readings files).filter (isLost files.keys)) } := by
  have start : files.keys.foldl .addNode {} =
      (⟨files.mapWithKey (fun _ _ => []), files.mapWithKey (fun _ _ => [])⟩ : Digraph) := by
    have added := foldl_addNode files.keys {} (by simpa [OrderedMap.keys] using files.nodup)
    have all := files.ofList_map (fun _ _ => ([] : List String))
    rw [added]
    simpa [OrderedMap.ofList, OrderedMap.keys, Function.comp_def] using all
  have nested : links files = (readings files).foldl
      (fun links reading => links.addSpecifier files.keys reading.1 reading.2)
      { digraph := files.keys.foldl .addNode {} } := by
    rw [readings, List.foldl_flatMap]
    simp only [List.foldl_map]
    rfl
  rw [nested, foldl_addSpecifier, start]
  congr 1
  apply foldl_addEdge
  intro edge member
  rw [OrderedMap.keys_mapWithKey]
  exact ends_of_mem_givenEdges member

/-- The specifiers that are read of one file. -/
theorem readings_at {source : String} {outline : Option Outline}
    (found : files.get? source = some outline) :
    (readings files).filter (fun reading => reading.1 = source) =
      (specifiers outline).map (Prod.mk source) := by
  rw [readings, List.filter_flatMap, files.flatMap_entries found]
  · simp [List.filter_eq_self]
  · intro entry _ elsewhere
    simp [elsewhere]

/-- The unresolved specifiers that the loops list for a file. -/
theorem unresolved_links {source : String} {outline : Option Outline}
    (found : files.get? source = some outline) :
    ((links files).unresolved.get? source).getD [] = unresolved files.keys source outline := by
  have here : ((readings files).filter (isLost files.keys)).filter
      (fun reading => reading.1 = source) =
        (unresolved files.keys source outline).map (Prod.mk source) := by
    rw [List.filter_comm, readings_at found, List.filter_map]
    rfl
  rw [links_eq, OrderedMap.collect, OrderedMap.getD_get?_collectInto, here]
  exact (foldl_append_singleton Prod.snd _).trans (by rw [List.map_map]; exact List.map_id _)

/-- The edges that are read of one file lead to its targets. -/
theorem givenEdges_at {source : String} {outline : Option Outline}
    (found : files.get? source = some outline) :
    (((givenEdges files).filter (fun edge => edge.source = source)).map Edge.target).eraseDups =
      targets files.keys source outline := by
  have own : (givenEdges files).filter (fun edge => edge.source = source) =
      ((readings files).filter (fun reading => reading.1 = source)).filterMap
        (edgeOf? files.keys) := by
    rw [givenEdges, List.filter_filterMap, List.filterMap_filter]
    congr 1
    funext reading
    simp only [edgeOf?, decide_eq_true_eq]
    cases (resolve reading.2 reading.1 files.keys).filter (· ≠ reading.1) with
    | none => simp
    | some target => simp [Option.filter]
  rw [own, readings_at found, List.filterMap_map, List.map_filterMap, targets,
    List.filter_filterMap]
  congr 2
  funext specifier
  simp [edgeOf?, Function.comp_def]

/-- The edges of the graph, file by file. -/
theorem edges_eq (files : FileMap) :
    edges files = files.entries.flatMap (fun file =>
      (targets files.keys file.1 file.2).map (Edge.mk file.1)) := by
  have known : ∀ edge ∈ givenEdges files,
      edge.source ∈ (files.mapWithKey (fun _ _ => ([] : List String))).keys := by
    intro edge member
    rw [OrderedMap.keys_mapWithKey]
    exact (ends_of_mem_givenEdges member).1
  rw [edges, links_eq, Digraph.edges, OrderedMap.entries_collectInto _ _ _ _ known,
    OrderedMap.keys_mapWithKey, List.flatMap_map, OrderedMap.keys, List.flatMap_map]
  apply List.flatMap_congr
  rintro ⟨source, outline⟩ listed
  have found := (files.get?_eq_some_iff source outline).2 listed
  simp only [OrderedMap.get?_mapWithKey, found, Option.map_some, Option.getD_some, foldl_addOnce,
    givenEdges_at found]
  rfl

/-! ### Edges -/

theorem mem_targets_iff (known : List String) (source target : String)
    (outline : Option Outline) :
    target ∈ targets known source outline ↔ source ≠ target ∧
      ∃ specifier ∈ specifiers outline, resolve specifier source known = some target := by
  rw [targets, List.mem_eraseDups, List.mem_filter, List.mem_filterMap, and_comm,
    decide_eq_true_eq, ne_comm]

theorem mem_edges_iff (source target : String) :
    ⟨source, target⟩ ∈ edges files ↔ IsImport files source target := by
  rw [edges_eq, IsImport, List.mem_flatMap]
  constructor
  · rintro ⟨⟨path, outline⟩, listed, member⟩
    obtain ⟨other, meant, same⟩ := List.mem_map.1 member
    cases same
    obtain ⟨different, specifier, imported, resolved⟩ := (mem_targets_iff _ _ _ _).1 meant
    cases outline with
    | none => cases imported
    | some outline =>
      exact ⟨outline, (files.get?_eq_some_iff _ _).2 listed, different, specifier, imported,
        resolved⟩
  · rintro ⟨outline, found, different, specifier, imported, resolved⟩
    refine ⟨(source, some outline), (files.get?_eq_some_iff _ _).1 found, ?_⟩
    apply List.mem_map_of_mem
    exact (mem_targets_iff _ _ _ _).2 ⟨different, specifier, imported, resolved⟩

/-- Edges join discovered files. -/
theorem mem_keys_of_mem_edges {edge : Edge} (member : edge ∈ edges files) :
    edge.source ∈ files.keys ∧ edge.target ∈ files.keys := by
  obtain ⟨outline, found, _, _, _, resolved⟩ := (mem_edges_iff edge.source edge.target).1 member
  have listed := (files.get?_eq_some_iff _ _).1 found
  exact ⟨List.mem_map_of_mem (f := Prod.fst) listed, mem_of_resolve resolved⟩

/-- The targets of one file stand in order of first import. -/
theorem pairwise_targets (known : List String) (source : String) (outline : Option Outline) :
    (targets known source outline).Pairwise (fun first second =>
      (specifiers outline).findIdx (fun specifier => resolve specifier source known = some first) <
        (specifiers outline).findIdx
          (fun specifier => resolve specifier source known = some second)) := by
  have ordered := pairwise_findIdx_eraseDups
    (fun specifier => (resolve specifier source known).filter (· ≠ source)) (specifiers outline)
  rw [← List.filter_filterMap] at ordered
  apply ordered.imp_of_mem
  intro first second listed listed' before
  have different := ((mem_targets_iff known source first outline).1 listed).1
  have different' := ((mem_targets_iff known source second outline).1 listed').1
  simpa [Option.filter_eq_some_iff, Ne.symm different, Ne.symm different'] using before

theorem pairwise_entries (files : FileMap) :
    files.entries.Pairwise (fun first second =>
      files.keys.idxOf first.1 < files.keys.idxOf second.1) := by
  have keys : files.keys.Pairwise _ := pairwise_idxOf_of_nodup files.nodup
  rwa [OrderedMap.keys, List.pairwise_map] at keys

/-- Edges stand in discovery order of their sources, and those of one source in order of first
import. -/
theorem pairwise_edges (files : FileMap) :
    (edges files).Pairwise (fun first second =>
      files.keys.idxOf first.source < files.keys.idxOf second.source ∨
        first.source = second.source ∧ firstImport files first < firstImport files second) := by
  rw [edges_eq, List.pairwise_flatMap]
  constructor
  · rintro ⟨source, outline⟩ listed
    have found := (files.get?_eq_some_iff source outline).2 listed
    apply List.pairwise_map.2
    apply (pairwise_targets files.keys source outline).imp
    intro first second before
    exact .inr ⟨rfl, by simpa [firstImport, found] using before⟩
  · apply (pairwise_entries files).imp
    intro first second before edge member edge' member'
    obtain ⟨_, _, rfl⟩ := List.mem_map.1 member
    obtain ⟨_, _, rfl⟩ := List.mem_map.1 member'
    exact .inl before

theorem nodup_edges (files : FileMap) : (edges files).Nodup := by
  apply (pairwise_edges files).imp
  rintro first second (before | ⟨_, before⟩) rfl
  · exact Nat.lt_irrefl _ before
  · exact Nat.lt_irrefl _ before

theorem nodup_targets (known : List String) (source : String) (outline : Option Outline) :
    (targets known source outline).Nodup :=
  nodup_eraseDups _

/-! ### Nodes -/

/-- The importers of a file are the sources of the edges into it, in discovery order: each source has
at most one edge to it. -/
theorem importers_eq (files : FileMap) (target : String) :
    importers (edges files) target =
      files.keys.filter (fun source => (⟨source, target⟩ : Edge) ∈ edges files) := by
  have once (source : String) (outline : Option Outline) :
      (((targets files.keys source outline).map (Edge.mk source)).filter
          (fun edge => edge.target = target)).map Edge.source =
        if target ∈ targets files.keys source outline then [source] else [] := by
    have alone : (targets files.keys source outline).filter (· = target) =
        if target ∈ targets files.keys source outline then [target] else [] := by
      rw [List.filter_eq]
      split
      · next listed =>
        rw [List.count_eq_one_of_mem (nodup_targets _ _ _) listed]
        rfl
      · next absent => rw [List.count_eq_zero_of_not_mem absent]; rfl
    rw [List.filter_map]
    simp only [Function.comp_def, alone]
    split <;> rfl
  have listed : ∀ entry ∈ files.entries,
      (target ∈ targets files.keys entry.1 entry.2 ↔ (⟨entry.1, target⟩ : Edge) ∈ edges files) := by
    rintro ⟨source, outline⟩ member
    have found := (files.get?_eq_some_iff source outline).2 member
    rw [mem_targets_iff, mem_edges_iff, IsImport, found]
    cases outline <;> simp [specifiers]
  unfold importers
  conv_lhs => rw [edges_eq, List.filter_flatMap, List.map_flatMap]
  rw [List.flatMap_congr (fun entry member => by rw [once, if_congr (listed entry member) rfl rfl]),
    OrderedMap.keys]
  induction files.entries with
  | nil => rfl
  | cons entry rest ih =>
    rw [List.flatMap_cons, ih, List.map_cons, List.filter_cons]
    split
    · next member => simp [member]
    · next absent => simp [absent]

/-- The loops read the edges of the graph, some of them more than once. -/
theorem mem_givenEdges_iff (edge : Edge) : edge ∈ givenEdges files ↔ edge ∈ edges files := by
  have here {source : String} {outline : Option Outline}
      (found : files.get? source = some outline) (target : String) :
      target ∈ targets files.keys source outline ↔ ⟨source, target⟩ ∈ givenEdges files := by
    rw [← givenEdges_at found, List.mem_eraseDups, List.mem_map]
    constructor
    · rintro ⟨edge, member, rfl⟩
      obtain ⟨given, same⟩ := List.mem_filter.1 member
      rwa [← of_decide_eq_true same]
    · intro given
      exact ⟨_, List.mem_filter.2 ⟨given, decide_eq_true rfl⟩, rfl⟩
  rw [edges_eq, List.mem_flatMap]
  constructor
  · intro given
    obtain ⟨file, listed, same⟩ := List.mem_map.1 (ends_of_mem_givenEdges given).1
    have found := (files.get?_eq_some_iff file.1 file.2).2 listed
    refine ⟨file, listed, List.mem_map.2 ⟨edge.target, (here found _).2 ?_, ?_⟩⟩
    · rwa [same]
    · rw [same]
  · rintro ⟨⟨source, outline⟩, listed, member⟩
    obtain ⟨target, meant, rfl⟩ := List.mem_map.1 member
    exact (here ((files.get?_eq_some_iff source outline).2 listed) target).1 meant

/-- Edges are read in discovery order of their sources. -/
theorem pairwise_givenEdges (files : FileMap) :
    (givenEdges files).Pairwise (fun first second =>
      files.keys.idxOf first.source ≤ files.keys.idxOf second.source) := by
  have read : (readings files).Pairwise (fun first second =>
      files.keys.idxOf first.1 ≤ files.keys.idxOf second.1) := by
    rw [readings, List.pairwise_flatMap]
    constructor
    · intro file _
      exact List.pairwise_map.2 (List.pairwise_of_forall (fun _ _ => Nat.le_refl _))
    · apply (pairwise_entries files).imp
      intro first second before reading member reading' member'
      obtain ⟨_, _, rfl⟩ := List.mem_map.1 member
      obtain ⟨_, _, rfl⟩ := List.mem_map.1 member'
      exact before.le
  refine read.filterMap _ ?_
  intro first second before edge given edge' given'
  obtain ⟨_, _, rfl⟩ := Option.map_eq_some_iff.1 given
  obtain ⟨_, _, rfl⟩ := Option.map_eq_some_iff.1 given'
  exact before

/-- The importers that the loops list for a file are the sources of the edges into it.  Files are read
in discovery order, so the importers come in that order, and none comes twice. -/
theorem predecessors_links (files : FileMap) (target : String) :
    ((links files).digraph.predecessors.get? target).getD [] = importers (edges files) target := by
  have empty : ((files.mapWithKey (fun _ _ => ([] : List String))).get? target).getD [] = [] := by
    rw [OrderedMap.get?_mapWithKey]
    cases files.get? target <;> rfl
  rw [links_eq, OrderedMap.getD_get?_collectInto, empty, foldl_addOnce, importers_eq]
  have member (source : String) :
      source ∈ (((givenEdges files).filter (fun edge => edge.target = target)).map
        Edge.source).eraseDups ↔
          source ∈ files.keys.filter (fun source => (⟨source, target⟩ : Edge) ∈ edges files) := by
    rw [List.mem_eraseDups, List.mem_map, List.mem_filter, decide_eq_true_eq,
      ← mem_givenEdges_iff]
    constructor
    · rintro ⟨edge, listed, rfl⟩
      obtain ⟨given, same⟩ := List.mem_filter.1 listed
      obtain rfl := of_decide_eq_true same
      exact ⟨(ends_of_mem_givenEdges given).1, given⟩
    · rintro ⟨_, given⟩
      exact ⟨_, List.mem_filter.2 ⟨given, decide_eq_true rfl⟩, rfl⟩
  refine eq_of_ordered member ?_
    ((pairwise_idxOf_of_nodup files.nodup).sublist List.filter_sublist)
  have once := nodup_eraseDups
    (((givenEdges files).filter (fun edge => edge.target = target)).map Edge.source)
  have ordered : (((givenEdges files).filter (fun edge => edge.target = target)).map
      Edge.source).eraseDups.Pairwise
        (fun first second => files.keys.idxOf first ≤ files.keys.idxOf second) := by
    apply List.Pairwise.sublist (eraseDups_sublist _)
    rw [List.pairwise_map]
    exact (pairwise_givenEdges files).filter _
  apply (once.and ordered).imp_of_mem
  intro first second listed _ ⟨different, before⟩
  have known := (List.mem_filter.1 ((member first).1 listed)).1
  exact lt_of_le_of_ne before (fun same => different ((List.idxOf_inj known).1 same))

/-- The node of a file with the given outline. -/
def nodeHere (files : FileMap) (path : String) (outline : Option Outline) : Node where
  path := path
  imports := specifiers outline
  unresolved := unresolved files.keys path outline
  importedBy := importers (edges files) path

theorem nodes_eq (files : FileMap) : nodes files = files.mapWithKey (nodeHere files) := by
  apply OrderedMap.eq_of_entries
  apply List.map_congr_left
  rintro ⟨path, outline⟩ listed
  have found := (files.get?_eq_some_iff path outline).2 listed
  simp only [unresolved_links found, predecessors_links, nodeHere]

theorem get?_build_nodes (files : FileMap) (path : String) :
    (build files).nodes.get? path = (files.get? path).map (nodeHere files path) := by
  rw [← OrderedMap.get?_mapWithKey, ← nodes_eq]
  rfl

theorem keys_nodes (files : FileMap) : (nodes files).keys = files.keys :=
  files.keys_mapWithKey _

theorem get?_nodes (path : String) (node : Node) (found : (nodes files).get? path = some node) :
    ∃ outline, files.get? path = some outline ∧
      node = { path := path, imports := specifiers outline,
               unresolved := unresolved files.keys path outline,
               importedBy := importers (edges files) path } := by
  rw [nodes_eq, OrderedMap.get?_mapWithKey, Option.map_eq_some_iff] at found
  obtain ⟨outline, listed, rfl⟩ := found
  exact ⟨outline, listed, rfl⟩

theorem sum_inDegree_nodes (files : FileMap) :
    ((nodes files).values.map Node.inDegree).sum = (edges files).length := by
  have known : ∀ edge ∈ edges files, edge.target ∈ files.keys :=
    fun _ member => (mem_keys_of_mem_edges member).2
  have degrees : (nodes files).values.map Node.inDegree =
      files.keys.map
        (fun path => ((edges files).filter (fun edge => edge.target = path)).length) := by
    simp [nodes_eq, nodeHere, OrderedMap.values, OrderedMap.keys, OrderedMap.mapWithKey,
      Node.inDegree, importers, Function.comp_def]
  rw [degrees]
  exact sum_length_filter_eq files.nodup Edge.target known

/-- The import graph is what it has to be. -/
theorem isImportGraph_build (files : FileMap) : IsImportGraph files (build files) where
  nodup_edges := nodup_edges files
  no_self_edge := by
    intro edge member
    obtain ⟨_, _, different, _⟩ := (mem_edges_iff edge.source edge.target).1 member
    exact different
  ends_known := fun _ => mem_keys_of_mem_edges
  mem_edges_iff := mem_edges_iff
  sources_ordered := by
    apply (pairwise_edges files).imp
    rintro first second (before | ⟨same, _⟩)
    · exact Nat.le_of_lt before
    · exact Nat.le_of_eq (by rw [same])
  targets_ordered := by
    apply (pairwise_edges files).imp
    rintro first second (before | ⟨_, before⟩) same
    · rw [same] at before
      exact absurd before (Nat.lt_irrefl _)
    · exact before
  keys_nodes := keys_nodes files
  importedBy_eq := by
    intro path node found
    obtain ⟨outline, _, rfl⟩ := get?_nodes path node found
    exact importers_eq files path
  sum_inDegree := sum_inDegree_nodes files
  unresolved_eq := by
    intro path node outline found parsed
    obtain ⟨other, listed, rfl⟩ := get?_nodes path node found
    cases listed.symm.trans parsed
    apply List.filter_congr
    intro specifier _
    cases resolve specifier path files.keys <;> simp
  accounted := by
    intro path node outline found parsed specifier imported relative
    obtain ⟨other, listed, rfl⟩ := get?_nodes path node found
    cases listed.symm.trans parsed
    cases resolved : resolve specifier path files.keys with
    | none =>
      left
      exact List.mem_filter.2 ⟨imported, by simp [relative, resolved]⟩
    | some target =>
      right
      by_cases self : path = target
      · exact .inl (by rw [self])
      · refine .inr ⟨target, rfl, ?_⟩
        exact (mem_edges_iff path target).2
          ⟨outline, parsed, self, specifier, imported, resolved⟩

end RepoAtlas.Imports
