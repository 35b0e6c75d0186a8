/-
Module: RepoAtlas.Proofs.FileConservation
Purpose: No stage of an analysis loses a file, lists one twice or makes one up.
  Every stage goes over the outlines by itself, some of them by sorting or grouping.  Each is shown
  to list the paths of the contents, and the counts that two stages give for one file are shown to
  agree.
Main exports: flawAt?, AccountsForFiles, exportCount_eq, paths_rank_perm, files_layerGroups_perm,
  detect_perm, parseWarnings_eq, files_are_accounted_for
-/
import RepoAtlas.Proofs.ArchitectureGraph
import RepoAtlas.Proofs.ContentDifferences
import RepoAtlas.Proofs.FlowchartLines
import RepoAtlas.Proofs.HubViews

namespace RepoAtlas

open Architecture Diagram Overview Ranking Text.Utf8

/-- Why a parser cannot decode the text of the file at a path, if it cannot. -/
def flawAt? (parser : Parser) (contents : OrderedMap String Content) (path : String) :
    Option String :=
  (contents.get? path).bind (fun content =>
    match parser path content with
    | .error (.undecodable reason) => some reason
    | _ => none)

/-- What an analysis says of the files of its contents.  The stages that keep the discovery order
list exactly the given paths; ranking, layers and changes list each of them once.  A file stands in
the layer of its directory and in no other.  There is one warning for each file whose text the parser
cannot decode, and such a file is not parsed.  The stages agree on how much a file exports and
defines, which is nothing when it is not parsed. -/
structure AccountsForFiles (parser : Parser) (contents : OrderedMap String Content)
    (analysis : Analysis) : Prop where
  keys_files : analysis.files.keys = contents.keys
  keys_nodes : analysis.imports.nodes.keys = contents.keys
  keys_snapshot : analysis.snapshot.files.keys = contents.keys.map points
  paths_architecture : analysis.architecture.nodes.map Node.path = contents.keys
  ranked_perm : (analysis.ranked.map RankedFile.path).Perm contents.keys
  layers_perm : (analysis.overview.layers.flatMap LayerGroup.files).Perm contents.keys
  layer_eq : ∀ group ∈ analysis.overview.layers, ∀ path ∈ group.files,
    group.layer = (Layer.ofPath path).getD .other
  nodup_layers : (analysis.overview.layers.map LayerGroup.layer).Nodup
  changes_perm : (analysis.changes.added ++ analysis.changes.modified ++
    analysis.changes.unchanged).Perm (contents.keys.map points)
  warnings_eq : analysis.warnings = contents.keys.filterMap (fun path =>
    (flawAt? parser contents path).map (fun reason => "failed to parse " ++ path ++ ": " ++ reason))
  unparsed_of_flaw : ∀ path reason, flawAt? parser contents path = some reason →
    analysis.files.get? path = some none
  counts_of_parsed : ∀ ranked ∈ analysis.ranked, ∀ node ∈ analysis.architecture.nodes,
    ∀ outline state, node.path = ranked.path →
    analysis.files.get? ranked.path = some (some outline) →
    analysis.snapshot.files.get? (points ranked.path) = some state →
    ranked.exportCount = node.symbols.length + outline.exports.length ∧
      state.symbolCount = outline.functions.length + outline.classes.length
  counts_of_unparsed : ∀ ranked ∈ analysis.ranked, ∀ node ∈ analysis.architecture.nodes,
    ∀ state, node.path = ranked.path → analysis.files.get? ranked.path = some none →
    analysis.snapshot.files.get? (points ranked.path) = some state →
    ranked.exportCount = 0 ∧ node.symbols = [] ∧ state.symbolCount = 0

/-! ### Ranking -/

/-- A file exports its exported definitions and its export statements. -/
theorem Outline.exportCount_eq (outline : Outline) :
    outline.exportCount = outline.exportedNames.length + outline.exports.length := by
  rw [exportCount, exportedNames, classesFirst, List.length_map, ← List.countP_eq_length_filter,
    List.countP_append, Nat.add_comm (outline.functions.countP _)]

namespace Ranking

variable {files : FileMap}

/-- Every file is ranked once, whatever the counts are taken from. -/
theorem paths_rank_perm (files : FileMap) (given : Option FileMap) :
    ((rank (Imports.build files) given).map RankedFile.path).Perm files.keys := by
  have sorted := (List.mergeSort_perm ((Imports.nodes files).values.map (fun node =>
    rankedFile (Imports.build files).maxInDegree (given.bind (·.get? node.path)).join node))
    (fun first second => second.importance.thousandths ≤ first.importance.thousandths)).map
      RankedFile.path
  rw [List.map_map] at sorted
  rw [← Imports.paths_values_nodes files]
  exact sorted

theorem exportCount_of_mem_rank {ranked : RankedFile}
    (member : ranked ∈ rank (Imports.build files) (some files)) :
    ranked.exportCount = ((files.get? ranked.path).join.map Outline.exportCount).getD 0 := by
  obtain ⟨node, _, rfl⟩ := List.mem_map.1 (List.mem_mergeSort.1 member)
  rfl

end Ranking

/-! ### Architecture and layers -/

namespace Architecture

variable {files : FileMap}

/-- What a node says of its file. -/
theorem get?_of_mem_nodes {imports : Imports.Graph} {node : Node}
    (member : node ∈ (build files imports).nodes) :
    ∃ outline, files.get? node.path = some outline ∧
      node.symbols = (outline.map Outline.exportedNames).getD [] ∧
      node.layer = Layer.ofPath node.path := by
  obtain ⟨⟨path, outline⟩, listed, rfl⟩ := List.mem_map.1 member
  exact ⟨outline, (files.get?_eq_some_iff path outline).2 listed, rfl, rfl⟩

end Architecture

namespace Overview

variable (nodes : List Node)

/-- The loop over the files leaves each layer with the paths of its own files. -/
theorem layerGroups_eq : layerGroups nodes = (groups nodes).map (fun group =>
    ⟨group.1, group.2.map Node.path⟩) := by
  rw [layerGroups, OrderedMap.entries_collect_append, groups_eq, List.map_map, List.map_map]
  rfl

theorem nodup_layerGroups : ((layerGroups nodes).map LayerGroup.layer).Nodup := by
  have layers : (layerGroups nodes).map LayerGroup.layer = (groups nodes).map Prod.fst := by
    rw [layerGroups_eq, List.map_map]
    rfl
  rw [layers]
  exact nodup_layers_groups nodes

/-- Every node is in one of the groups, and in only one. -/
theorem files_layerGroups_perm :
    ((layerGroups nodes).flatMap LayerGroup.files).Perm (nodes.map Node.path) := by
  have grouped : (layerGroups nodes).flatMap LayerGroup.files =
      ((groups nodes).flatMap Prod.snd).map Node.path := by
    rw [layerGroups_eq, List.flatMap_map, List.map_flatMap]
  rw [grouped]
  exact (groups_perm nodes).map Node.path

theorem layer_of_mem_layerGroups {nodes : List Node} {group : LayerGroup}
    (member : group ∈ layerGroups nodes) {path : String} (listed : path ∈ group.files) :
    ∃ node ∈ nodes, node.path = path ∧ group.layer = node.layer.getD .other := by
  rw [layerGroups_eq, groups_eq] at member
  obtain ⟨⟨layer, members⟩, grouped, rfl⟩ := List.mem_map.1 member
  obtain ⟨_, _, same⟩ := List.mem_map.1 grouped
  cases same
  obtain ⟨node, chosen, rfl⟩ := List.mem_map.1 listed
  obtain ⟨known, here⟩ := List.mem_filter.1 chosen
  exact ⟨node, known, rfl, (of_decide_eq_true here).symm⟩

end Overview

/-! ### Changes and warnings -/

variable {contents : OrderedMap String Content} {parser : Parser}

/-- Every present path is added, modified or unchanged, and only one of these. -/
theorem Changes.detect_perm {contents : OrderedMap Points Content} {previous : Option Snapshot}
    {changes : Changes} (detected : detect contents previous = .ok changes) :
    (changes.added ++ changes.modified ++ changes.unchanged).Perm contents.keys := by
  rw [detect] at detected
  split at detected
  · obtain ⟨statuses, compared, rfl⟩ := map_eq_ok_iff.1 detected
    rw [← OrderedMap.keys_of_traverse compared]
    exact pathsWith_perm_keys statuses
  · cases detected
    simp

/-- A file that the parser handles is warned of exactly when its text cannot be decoded. -/
theorem flawAt?_eq {path : String} {content : Content} (present : contents.get? path = some content)
    (handles : parser.Handles path content) :
    flawAt? parser contents path =
      match resultOf parser path content with
      | .ok _ => none
      | .error reason => some reason := by
  rw [flawAt?, present, Option.bind_some, resultOf]
  rcases parsed : parser path content with failure | outline
  · cases failure with
    | undecodable reason => rfl
    | fatal reason => exact absurd parsed (handles reason)
  · rfl

theorem parseWarnings_eq
    (handles : ∀ entry ∈ contents.entries, parser.Handles entry.1 entry.2) :
    parseWarnings (contents.mapWithKey (resultOf parser)) =
      contents.keys.filterMap (fun path =>
        (flawAt? parser contents path).map (parseWarning path)) := by
  rw [parseWarnings, OrderedMap.mapWithKey, OrderedMap.keys, List.filterMap_map, List.filterMap_map]
  apply List.filterMap_congr
  intro entry member
  have present := (contents.get?_eq_some_iff entry.1 entry.2).2 member
  simp only [Function.comp_apply, flawAt?_eq present (handles entry member)]
  cases resultOf parser entry.1 entry.2 <;> rfl

theorem outlineOf_of_flaw {path reason : String} {content : Content}
    (present : contents.get? path = some content) (handles : parser.Handles path content)
    (flaw : flawAt? parser contents path = some reason) : outlineOf parser path content = none := by
  rw [flawAt?_eq present handles] at flaw
  rw [outlineOf]
  cases result : resultOf parser path content with
  | ok outline => simp [result] at flaw
  | error reason => rfl

/-! ### All stages -/

/-- The counts of a file in ranking, architecture and snapshot are those of its outline. -/
theorem counts_agree {files : FileMap} {contents : OrderedMap Points Content} {commit : Points}
    {stamp : Stamp} {ranked : RankedFile} {node : Node} {state : FileState} {outline : Option Outline}
    (listed : ranked ∈ rank (Imports.build files) (some files))
    (known : node ∈ (Architecture.build files (Imports.build files)).nodes)
    (recorded : (snapshotHere (underPoints files) contents commit stamp).files.get?
      (points ranked.path) = some state)
    (same : node.path = ranked.path) (found : files.get? ranked.path = some outline) :
    ranked.exportCount = (outline.map Outline.exportCount).getD 0 ∧
      node.symbols = (outline.map Outline.exportedNames).getD [] ∧
      state.symbolCount = (outline.map Outline.symbolCount).getD 0 := by
  refine ⟨?_, ?_, ?_⟩
  · rw [exportCount_of_mem_rank listed, found, Option.join_some]
  · obtain ⟨_, found', symbols, _⟩ := get?_of_mem_nodes known
    rw [same, found] at found'
    cases found'
    exact symbols
  · rw [snapshotHere, OrderedMap.get?_mapWithKey] at recorded
    obtain ⟨content, _, rfl⟩ := Option.map_eq_some_iff.1 recorded
    rw [stateHere, Snapshot.symbolCountAt, get?_underPoints, found, Option.join_some]

/-- An analysis that returns accounts for every file of its contents, whatever the last snapshot and
the parser. -/
theorem files_are_accounted_for {request : Request} {analysis : Analysis}
    (analysed : analyze request contents = .ok analysis) :
    AccountsForFiles request.parser contents analysis := by
  obtain ⟨handles, _, changes, detected, rfl⟩ := (analyze_eq_ok_iff request analysis).1 analysed
  let files := contents.mapWithKey (outlineOf request.parser)
  have keys : files.keys = contents.keys := contents.keys_mapWithKey _
  have paths : (Architecture.build files (Imports.build files)).nodes.map Node.path =
      contents.keys := (paths_nodes_build files _).trans keys
  constructor
  case keys_files => exact keys
  case keys_nodes => exact (Imports.keys_nodes files).trans keys
  case keys_snapshot => exact ((underPoints contents).keys_mapWithKey _).trans (keys_underPoints _)
  case paths_architecture => exact paths
  case ranked_perm =>
    rw [← keys]
    exact paths_rank_perm files (some files)
  case layers_perm =>
    rw [← paths]
    exact files_layerGroups_perm _
  case layer_eq =>
    intro group member path listed
    obtain ⟨node, known, rfl, here⟩ := layer_of_mem_layerGroups member listed
    obtain ⟨_, _, _, layer⟩ := get?_of_mem_nodes known
    rw [here, layer]
  case nodup_layers => exact nodup_layerGroups _
  case changes_perm =>
    rw [← keys_underPoints]
    exact Changes.detect_perm detected
  case warnings_eq => exact parseWarnings_eq handles
  case unparsed_of_flaw =>
    intro path reason flaw
    obtain ⟨content, present, _⟩ := Option.bind_eq_some_iff.1 flaw
    have member := (contents.get?_eq_some_iff path content).1 present
    have unparsed := outlineOf_of_flaw present (handles _ member) flaw
    change files.get? path = some none
    rw [OrderedMap.get?_mapWithKey, present, Option.map_some, unparsed]
  case counts_of_parsed =>
    intro ranked listed node known outline state same parsed recorded
    obtain ⟨exported, shown, defined⟩ := counts_agree listed known recorded same parsed
    rw [exported, shown, defined]
    exact ⟨outline.exportCount_eq, by simp [Outline.symbolCount]⟩
  case counts_of_unparsed =>
    intro ranked listed node known state same unparsed recorded
    exact counts_agree listed known recorded same unparsed

/-- A source file in a layer, a file with a byte that is not UTF-8, and a manifest. -/
def mixedContents : OrderedMap String Content where
  entries := [("api/user.py", .ofText "class User:\n    pass\n"), ("flawed.py", .raw [0xFF]),
    ("package.json", .ofText "\x7b\x7d")]
  nodup := by decide

/-- A request whose parser reports the flawed file instead of leaving it out. -/
def mixedRequest : Request where
  name := "mixed"
  repositoryPath := "/mixed"
  parser := fun path content =>
    if path = "flawed.py" then .error (.undecodable "invalid start byte")
    else standardParser Source.statements path content

theorem files_are_accounted_for_mixedContents :
    ∃ analysis, analyze mixedRequest mixedContents = .ok analysis ∧
      AccountsForFiles mixedRequest.parser mixedContents analysis ∧
      analysis.warnings = ["failed to parse flawed.py: invalid start byte"] ∧
      analysis.files.get? "flawed.py" = some none := by
  have hashable : AreHashable mixedContents := by
    intro entry member
    simp only [mixedContents, List.mem_cons, List.not_mem_nil, or_false] at member
    rcases member with rfl | rfl | rfl <;> exact ⟨_, rfl⟩
  have handles : ∀ entry ∈ mixedContents.entries,
      mixedRequest.parser.Handles entry.1 entry.2 := by
    intro entry _ reason failed
    simp only [mixedRequest, standardParser] at failed
    split at failed <;> cases failed
  obtain ⟨analysis, analysed, _⟩ := analyze_of_hashable mixedRequest hashable handles
  have accounts := files_are_accounted_for analysed
  exact ⟨analysis, analysed, accounts, accounts.warnings_eq.trans (by decide),
    accounts.unparsed_of_flaw "flawed.py" "invalid start byte" (by decide)⟩

end RepoAtlas
