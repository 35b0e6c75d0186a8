/-
Module: RepoAtlas.Proofs.FlowchartLines
Purpose: What a flowchart of the architecture shows, line by line.
  A chart is a list of drawn files, the same files sorted into layers, and a list of links; both ways
  of rendering write down one chart.  The links are found by a loop over the edges that remembers
  which arrows it has drawn, so what one step of the loop keeps is stated for the edges seen so far.
Main exports: Chart, Chart.text, arrowOf, IsChart, getElem?_takeBound, groups_eq, layers_groups,
  groups_perm, KeepsFirsts, KeepsFirsts.add, KeepsFirsts.pass, KeepsFirsts.step, KeepsFirsts.run,
  isChart_chartOf, IsChart.unique, render_writes_chart
-/
import RepoAtlas.Diagram.Flowchart
import RepoAtlas.Proofs.ImportGraph

namespace RepoAtlas

/-! ### Slices -/

namespace Text

/-- How many of `count` items a bound admits, if it is not negative; a negative bound counts from the
end. -/
def admitted (bound : Int) (count : Nat) : Int :=
  if 0 ≤ bound then bound else count + bound

theorem getElem?_takeBound {α : Type} (bound : Int) (items : List α) (place : Nat) (item : α) :
    (takeBound bound items)[place]? = some item ↔
      items[place]? = some item ∧ (place : Int) < admitted bound items.length := by
  have cut (count : Nat) : (items.take count)[place]? = some item ↔
      items[place]? = some item ∧ place < count := by
    rw [List.getElem?_take]
    split
    · next within => simp [within]
    · next beyond => simp [beyond]
  unfold takeBound admitted
  rw [apply_ite (·[place]?)]
  split <;>
  · rw [cut]
    apply and_congr_right
    intro _
    omega

end Text

namespace Diagram

open Architecture Text

/-! ### What a flowchart shows -/

/-- The content of a flowchart: the drawn files, the same files by layer, and the links. -/
structure Chart where
  drawn : List Node
  subgraphs : List (Layer × List Node)
  links : List Edge

/-- The line that declares a file. -/
def nodeLine (indent : String) (node : Node) : String :=
  indent ++ identifier node.path ++ "[\"" ++ label node ++ "\"]"

/-- The line of a link, labelled with its relation if it carries two names that are not empty. -/
def linkLine (edge : Edge) : String :=
  "    " ++ identifier edge.source ++ " " ++ arrow edge.relation ++
    (if edge.sourceSymbol.getD "" ≠ "" ∧ edge.targetSymbol.getD "" ≠ "" then
      "|" ++ edge.relation.word ++ "|" else "") ++
    " " ++ identifier edge.target

namespace Chart

/-- The lines that declare files, with one subgraph for each layer or without. -/
def declarations (chart : Chart) (grouped : Bool) : List String :=
  if grouped then
    chart.subgraphs.flatMap (fun (layer, members) =>
      ["    subgraph " ++ layer.word] ++ members.map (nodeLine "        ") ++ ["    end"])
  else
    chart.drawn.map (nodeLine "    ")

/-- The whole text of a chart. -/
def text (chart : Chart) (grouped : Bool) : String :=
  String.intercalate "\n"
    (["flowchart TB"] ++ chart.declarations grouped ++ chart.links.map linkLine)

end Chart

/-- What makes two edges the same arrow. -/
def arrowOf (edge : Edge) : String × String × Relation :=
  (edge.source, edge.target, edge.relation)

/-- What the chart of an architecture graph is.  Drawn are the hubs and the files with names, as far as
the bound admits.  Each occurring layer has one subgraph with the drawn files of that layer, in order
of first appearance; a file without layer is among the others.  A link is the first edge of its arrow
that leads from one drawn file to another, in the order of the edges. -/
structure IsChart (graph : Graph) (bound : Int) (chart : Chart) : Prop where
  drawn_iff : ∀ (place : Nat) (node : Node),
    let worthy := graph.nodes.filter (fun node => node.isHub ∨ node.symbols ≠ [])
    chart.drawn[place]? = some node ↔
      worthy[place]? = some node ∧ (place : Int) < admitted bound worthy.length
  nodup_layers : (chart.subgraphs.map Prod.fst).Nodup
  mem_layers_iff : ∀ layer, layer ∈ chart.subgraphs.map Prod.fst ↔
    ∃ node ∈ chart.drawn, node.layer.getD .other = layer
  layers_ordered : (chart.subgraphs.map Prod.fst).Pairwise (fun first second =>
    chart.drawn.findIdx (fun node => node.layer.getD .other = first) <
      chart.drawn.findIdx (fun node => node.layer.getD .other = second))
  members_eq : ∀ group ∈ chart.subgraphs,
    group.2 = chart.drawn.filter (fun node => node.layer.getD .other = group.1)
  members_perm : (chart.subgraphs.flatMap Prod.snd).Perm chart.drawn
  mem_links_iff : ∀ edge, edge ∈ chart.links ↔
    edge.source ≠ edge.target ∧ edge.source ∈ chart.drawn.map Node.path ∧
      edge.target ∈ chart.drawn.map Node.path ∧
      graph.edges.find? (fun other => arrowOf other = arrowOf edge) = some edge
  nodup_arrows : (chart.links.map arrowOf).Nodup
  links_ordered : chart.links.Pairwise (fun first second =>
    graph.edges.idxOf first < graph.edges.idxOf second)
  ends_declared : ∀ edge ∈ chart.links,
    identifier edge.source ∈ chart.drawn.map (fun node => identifier node.path) ∧
      identifier edge.target ∈ chart.drawn.map (fun node => identifier node.path)

/-! ### Layers -/

section Groups

variable (nodes : List Node)

/-- The loop over the files leaves each layer with its own files. -/
theorem groups_eq : groups nodes = (nodes.map layerOf).eraseDups.map (fun layer =>
    (layer, nodes.filter (fun node => layerOf node = layer))) := by
  have grouped := OrderedMap.entries_collect_append layerOf id nodes
  simp only [List.map_id, id_eq] at grouped
  exact grouped

theorem layers_groups : (groups nodes).map Prod.fst = (nodes.map layerOf).eraseDups := by
  simp [groups_eq, Function.comp_def]

theorem nodup_layers_groups : ((groups nodes).map Prod.fst).Nodup := by
  rw [layers_groups]
  exact nodup_eraseDups _

theorem pairwise_layers_groups :
    ((groups nodes).map Prod.fst).Pairwise (fun first second =>
      nodes.findIdx (fun node => layerOf node = first) <
        nodes.findIdx (fun node => layerOf node = second)) := by
  have ordered := pairwise_findIdx_eraseDups (some ∘ layerOf) nodes
  rw [List.filterMap_eq_map, ← layers_groups] at ordered
  simpa using ordered

/-- Every file is in one of the groups, and in only one. -/
theorem groups_perm : ((groups nodes).flatMap Prod.snd).Perm nodes := by
  have members : (groups nodes).flatMap Prod.snd =
      (nodes.map layerOf).eraseDups.flatMap (fun layer =>
        nodes.filter (fun node => layerOf node = layer)) := by
    rw [groups_eq, List.flatMap_map]
  rw [members]
  apply flatMap_filter_perm (nodup_eraseDups _)
  intro node member
  exact List.mem_eraseDups.2 (List.mem_map_of_mem member)

end Groups

/-! ### Links -/

theorem sameArrow_iff (first second : Edge) :
    sameArrow first second = true ↔ arrowOf first = arrowOf second := by
  simp [sameArrow, arrowOf, and_assoc]

theorem edgeLine_eq (edge : Edge) : edgeLine edge = linkLine edge := by
  have filled (name : Option String) : name.any (· ≠ "") = true ↔ name.getD "" ≠ "" := by
    cases name <;> simp
  have labelled : isLabelled edge = true ↔
      edge.sourceSymbol.getD "" ≠ "" ∧ edge.targetSymbol.getD "" ≠ "" := by
    rw [isLabelled, Bool.and_eq_true, filled, filled]
  unfold edgeLine linkLine
  by_cases named : isLabelled edge = true
  · rw [if_pos named, if_pos (labelled.1 named)]
    simp only [String.append_assoc]
  · rw [if_neg named, if_neg (mt labelled.2 named)]
    simp only [String.append_assoc, String.empty_append]

/-- What the loop over the edges keeps.  Of the edges seen so far, those kept are the ones to draw that
are the first of their arrow, the latest on top. -/
structure KeepsFirsts (isDrawn : Edge → Bool) (seen kept : List Edge) : Prop where
  mem_iff : ∀ edge, edge ∈ kept ↔ isDrawn edge = true ∧
    seen.find? (fun other => arrowOf other = arrowOf edge) = some edge
  ordered : kept.Pairwise (fun later earlier => seen.idxOf earlier < seen.idxOf later)

/-- Takes one edge in the loop. -/
def keepFirst (isDrawn : Edge → Bool) (kept : List Edge) (edge : Edge) : List Edge :=
  if isDrawn edge then (if kept.any (sameArrow edge) then kept else edge :: kept) else kept

section Loop

variable {isDrawn : Edge → Bool} {seen kept : List Edge}

theorem KeepsFirsts.mem_seen (keeps : KeepsFirsts isDrawn seen kept) {edge : Edge}
    (member : edge ∈ kept) : edge ∈ seen :=
  List.mem_of_find?_eq_some ((keeps.mem_iff edge).1 member).2

/-- The first edge of an arrow stays the first, and a new edge is it if the arrow is new. -/
theorem find?_concat_iff (next edge : Edge) :
    (seen ++ [next]).find? (fun other => arrowOf other = arrowOf edge) = some edge ↔
      seen.find? (fun other => arrowOf other = arrowOf edge) = some edge ∨
        edge = next ∧ ∀ earlier ∈ seen, arrowOf earlier ≠ arrowOf next := by
  rw [List.find?_append]
  cases found : seen.find? (fun other => arrowOf other = arrowOf edge) with
  | some first =>
    have listed := List.mem_of_find?_eq_some found
    have same : arrowOf first = arrowOf edge := by simpa using List.find?_some found
    rw [Option.some_or]
    constructor
    · exact .inl
    · rintro (already | ⟨rfl, fresh⟩)
      · exact already
      · exact absurd same (fresh first listed)
  | none =>
    have fresh : ∀ earlier ∈ seen, arrowOf earlier ≠ arrowOf edge := by
      simpa [List.find?_eq_none] using found
    rw [Option.none_or, List.find?_singleton]
    constructor
    · intro here
      split at here
      · cases here
        exact .inr ⟨rfl, fresh⟩
      · cases here
    · rintro (impossible | ⟨rfl, _⟩)
      · cases impossible
      · simp

/-- What was seen stays in its order. -/
theorem KeepsFirsts.ordered_concat (keeps : KeepsFirsts isDrawn seen kept) (next : Edge) :
    kept.Pairwise (fun later earlier =>
      (seen ++ [next]).idxOf earlier < (seen ++ [next]).idxOf later) := by
  apply keeps.ordered.imp_of_mem
  intro later earlier member member' before
  rwa [List.idxOf_append_of_mem (keeps.mem_seen member),
    List.idxOf_append_of_mem (keeps.mem_seen member')]

/-- An edge to draw is kept if its arrow is new. -/
theorem KeepsFirsts.add (keeps : KeepsFirsts isDrawn seen kept) {next : Edge}
    (drawn : isDrawn next = true) (unseen : ∀ earlier ∈ seen, arrowOf earlier ≠ arrowOf next) :
    KeepsFirsts isDrawn (seen ++ [next]) (next :: kept) where
  mem_iff := by
    intro edge
    rw [List.mem_cons, keeps.mem_iff, find?_concat_iff]
    constructor
    · rintro (rfl | ⟨drawn', first⟩)
      · exact ⟨drawn, .inr ⟨rfl, unseen⟩⟩
      · exact ⟨drawn', .inl first⟩
    · rintro ⟨drawn', first | ⟨rfl, _⟩⟩
      · exact .inr ⟨drawn', first⟩
      · exact .inl rfl
  ordered := by
    refine List.pairwise_cons.2 ⟨?_, keeps.ordered_concat next⟩
    intro earlier member
    have absent : next ∉ seen := fun listed => unseen next listed rfl
    have listed := keeps.mem_seen member
    rw [List.idxOf_append_of_mem listed, List.idxOf_append_of_notMem absent]
    exact (List.idxOf_lt_length_of_mem listed).trans_le (Nat.le_add_right _ _)

/-- Any other edge is passed over. -/
theorem KeepsFirsts.pass (keeps : KeepsFirsts isDrawn seen kept) {next : Edge}
    (stale : ¬ (isDrawn next = true ∧ ∀ earlier ∈ seen, arrowOf earlier ≠ arrowOf next)) :
    KeepsFirsts isDrawn (seen ++ [next]) kept where
  mem_iff := by
    intro edge
    rw [keeps.mem_iff, find?_concat_iff]
    constructor
    · exact fun ⟨drawn, first⟩ => ⟨drawn, .inl first⟩
    · rintro ⟨drawn, first | ⟨rfl, unseen⟩⟩
      · exact ⟨drawn, first⟩
      · exact absurd ⟨drawn, unseen⟩ stale
  ordered := keeps.ordered_concat next

variable (respects : ∀ {first second}, arrowOf first = arrowOf second →
  isDrawn first = isDrawn second)
include respects

/-- An arrow was drawn exactly if an edge with it was seen. -/
theorem KeepsFirsts.any_iff (keeps : KeepsFirsts isDrawn seen kept) {next : Edge}
    (drawn : isDrawn next = true) :
    kept.any (sameArrow next) = true ↔ ∃ earlier ∈ seen, arrowOf earlier = arrowOf next := by
  rw [List.any_eq_true]
  constructor
  · rintro ⟨first, member, same⟩
    exact ⟨first, keeps.mem_seen member, ((sameArrow_iff next first).1 same).symm⟩
  · rintro ⟨earlier, listed, same⟩
    obtain ⟨first, found⟩ : ∃ first,
        seen.find? (fun other => arrowOf other = arrowOf next) = some first := by
      rw [← Option.isSome_iff_exists, List.find?_isSome]
      exact ⟨earlier, listed, decide_eq_true same⟩
    have alike : arrowOf first = arrowOf next := by simpa using List.find?_some found
    refine ⟨first, (keeps.mem_iff first).2 ⟨(respects alike).trans drawn, ?_⟩,
      (sameArrow_iff next first).2 alike.symm⟩
    rwa [alike]

/-- One step of the loop. -/
theorem KeepsFirsts.step (keeps : KeepsFirsts isDrawn seen kept) (next : Edge) :
    KeepsFirsts isDrawn (seen ++ [next]) (keepFirst isDrawn kept next) := by
  unfold keepFirst
  split
  · next drawn =>
    have taken := keeps.any_iff respects drawn
    split
    · next known =>
      obtain ⟨earlier, listed, same⟩ := taken.1 known
      exact keeps.pass (fun fresh => fresh.2 earlier listed same)
    · next fresh =>
      exact keeps.add drawn (fun earlier listed same => fresh (taken.2 ⟨earlier, listed, same⟩))
  · next undrawn => exact keeps.pass (fun fresh => undrawn fresh.1)

/-- The loop goes on from any edges that were seen. -/
theorem KeepsFirsts.run (keeps : KeepsFirsts isDrawn seen kept) (rest : List Edge) :
    KeepsFirsts isDrawn (seen ++ rest) (rest.foldl (keepFirst isDrawn) kept) := by
  induction rest generalizing seen kept with
  | nil => rwa [List.append_nil]
  | cons next others ih =>
    rw [List.append_cons]
    exact ih (keeps.step respects next)

end Loop

/-- Whether an edge leads from one of some paths to another. -/
def leadsAcross (paths : List String) (edge : Edge) : Bool :=
  edge.source ≠ edge.target && paths.contains edge.source && paths.contains edge.target

theorem keepsFirsts_drawnEdges (paths : List String) (edges : List Edge) :
    KeepsFirsts (leadsAcross paths) edges (drawnEdges paths edges).reverse := by
  have respects {first second : Edge} (same : arrowOf first = arrowOf second) :
      leadsAcross paths first = leadsAcross paths second := by
    simp only [arrowOf, Prod.mk.injEq] at same
    rw [leadsAcross, leadsAcross, same.1, same.2.1]
  have start : KeepsFirsts (leadsAcross paths) [] [] := ⟨by simp, .nil⟩
  have loop := start.run respects edges
  rw [List.nil_append] at loop
  rwa [drawnEdges, List.reverse_reverse, List.foldl_filter]

/-! ### The chart of a graph -/

/-- The chart that is rendered. -/
def chartOf (graph : Graph) (bound : Int) : Chart where
  drawn := significant bound graph.nodes
  subgraphs := groups (significant bound graph.nodes)
  links := drawnEdges ((significant bound graph.nodes).map Node.path) graph.edges

theorem declarationLines_eq (nodes : List Node) (links : List Edge) (grouped : Bool) :
    declarationLines grouped nodes =
      Chart.declarations ⟨nodes, groups nodes, links⟩ grouped := by
  have line (indent : String) : (fun node => indent ++ declaration node) = nodeLine indent := by
    funext node
    simp only [declaration, nodeLine, String.append_assoc]
  unfold declarationLines Chart.declarations groupLines
  simp only [line, List.cons_append, List.nil_append]

/-- Both renderings write down one chart. -/
theorem render_eq_text (graph : Graph) (bound : Int) (grouped : Bool) :
    render graph bound grouped = (chartOf graph bound).text grouped := by
  have lines (edges : List Edge) : edges.map edgeLine = edges.map linkLine :=
    List.map_congr_left (fun edge _ => edgeLine_eq edge)
  simp only [render, Chart.text, lines, List.cons_append, List.nil_append]
  rw [declarationLines_eq]
  rfl

/-- The drawn files are those worth it as far as the bound admits. -/
theorem getElem?_significant (bound : Int) (nodes : List Node) (place : Nat) (node : Node) :
    let worthy := nodes.filter (fun node => node.isHub ∨ node.symbols ≠ [])
    (significant bound nodes)[place]? = some node ↔
      worthy[place]? = some node ∧ (place : Int) < admitted bound worthy.length := by
  intro worthy
  have same : nodes.filter (fun node => node.isHub || !node.symbols.isEmpty) = worthy := by
    apply List.filter_congr
    intro node _
    cases node.symbols <;> simp
  rw [significant, same, getElem?_takeBound]

theorem leadsAcross_iff (paths : List String) (edge : Edge) :
    leadsAcross paths edge = true ↔
      edge.source ≠ edge.target ∧ edge.source ∈ paths ∧ edge.target ∈ paths := by
  simp [leadsAcross, and_assoc]

/-- Different links are different arrows, as each is the first edge of its own. -/
theorem nodup_arrows_drawnEdges (paths : List String) (edges : List Edge) :
    ((drawnEdges paths edges).map arrowOf).Nodup := by
  have keeps := keepsFirsts_drawnEdges paths edges
  rw [List.Nodup, List.pairwise_map, ← List.pairwise_reverse]
  apply keeps.ordered.imp_of_mem
  intro later earlier member member' before same
  have first := ((keeps.mem_iff later).1 member).2
  have first' := ((keeps.mem_iff earlier).1 member').2
  rw [same] at first'
  rw [Option.some.inj (first.symm.trans first')] at before
  exact Nat.lt_irrefl _ before

theorem isChart_chartOf (graph : Graph) (bound : Int) :
    IsChart graph bound (chartOf graph bound) := by
  let nodes := significant bound graph.nodes
  have keeps := keepsFirsts_drawnEdges (nodes.map Node.path) graph.edges
  have links (edge : Edge) : edge ∈ drawnEdges (nodes.map Node.path) graph.edges ↔
      edge.source ≠ edge.target ∧ edge.source ∈ nodes.map Node.path ∧
        edge.target ∈ nodes.map Node.path ∧
        graph.edges.find? (fun other => arrowOf other = arrowOf edge) = some edge := by
    rw [← List.mem_reverse, keeps.mem_iff, leadsAcross_iff, and_assoc, and_assoc]
  exact {
    drawn_iff := getElem?_significant bound graph.nodes
    nodup_layers := nodup_layers_groups nodes
    mem_layers_iff := by
      intro layer
      change layer ∈ (groups nodes).map Prod.fst ↔ ∃ node ∈ nodes, layerOf node = layer
      rw [layers_groups, List.mem_eraseDups, List.mem_map]
    layers_ordered := pairwise_layers_groups nodes
    members_eq := by
      intro group member
      change group ∈ groups nodes at member
      rw [groups_eq] at member
      obtain ⟨layer, _, rfl⟩ := List.mem_map.1 member
      rfl
    members_perm := groups_perm nodes
    mem_links_iff := links
    nodup_arrows := nodup_arrows_drawnEdges _ _
    links_ordered := List.pairwise_reverse.1 keeps.ordered
    ends_declared := by
      intro edge member
      obtain ⟨_, source, target, _⟩ := (links edge).1 member
      obtain ⟨start, listed, named⟩ := List.mem_map.1 source
      obtain ⟨finish, listed', named'⟩ := List.mem_map.1 target
      exact ⟨List.mem_map.2 ⟨start, listed, congrArg identifier named⟩,
        List.mem_map.2 ⟨finish, listed', congrArg identifier named'⟩⟩
  }

/-! ### Only one chart -/

/-- The properties of a chart leave no choice. -/
theorem IsChart.unique {graph : Graph} {bound : Int} {first second : Chart}
    (chart : IsChart graph bound first) (chart' : IsChart graph bound second) : first = second := by
  have drawn : first.drawn = second.drawn := by
    apply List.ext_getElem?
    intro place
    apply Option.ext
    intro node
    exact (chart.drawn_iff place node).trans (chart'.drawn_iff place node).symm
  have layers : first.subgraphs.map Prod.fst = second.subgraphs.map Prod.fst := by
    apply eq_of_ordered _ chart.layers_ordered
    · rw [drawn]
      exact chart'.layers_ordered
    · intro layer
      rw [chart.mem_layers_iff, chart'.mem_layers_iff, drawn]
  have members {shown : Chart} (chart : IsChart graph bound shown) :
      shown.subgraphs = (shown.subgraphs.map Prod.fst).map (fun layer =>
        (layer, shown.drawn.filter (fun node => node.layer.getD .other = layer))) := by
    rw [List.map_map]
    conv_lhs => rw [← List.map_id shown.subgraphs]
    apply List.map_congr_left
    intro group member
    exact Prod.ext rfl (chart.members_eq group member)
  have subgraphs : first.subgraphs = second.subgraphs := by
    rw [members chart, members chart', layers, drawn]
  have links : first.links = second.links := by
    apply eq_of_ordered _ chart.links_ordered chart'.links_ordered
    intro edge
    rw [chart.mem_links_iff, chart'.mem_links_iff, drawn]
  cases first
  cases second
  cases drawn
  cases subgraphs
  cases links
  rfl

/-- An architecture graph and a bound determine one chart, and a flowchart is its text: the lines
that declare the drawn files, each under its layer if asked for, then one line for each link. -/
theorem render_writes_chart (graph : Graph) (bound : Int) :
    ∃ chart, IsChart graph bound chart ∧ (∀ other, IsChart graph bound other → other = chart) ∧
      ∀ grouped, render graph bound grouped = chart.text grouped :=
  ⟨chartOf graph bound, isChart_chartOf graph bound,
    fun _ other => other.unique (isChart_chartOf graph bound), render_eq_text graph bound⟩

end Diagram

end RepoAtlas
