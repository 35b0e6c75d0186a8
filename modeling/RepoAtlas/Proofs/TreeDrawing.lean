/-
Module: RepoAtlas.Proofs.TreeDrawing
Purpose: The drawing of a directory tree, line by line.
  A node is drawn on one line, and what stands before its name is said by the nodes that lead down
  to it alone: a column for each of them, with a bar where another sibling follows.  The lines stand
  in pre-order, which is the order of those chains of nodes as words.
Main exports: IsFollowed, importersMark, lineAlong, IsPreorder, chainsBelow, chainsThrough,
  mem_chainsBelow_iff, pairwise_chainsBelow, ends_chainsBelow_perm, isPreorder_chainsBelow,
  IsPreorder.unique, lineGroups, drawAll_eq_lineGroups, drawNode_sorted_eq, draw_writes_lines
-/
import RepoAtlas.Proofs.DirectoryGrowth
import RepoAtlas.Proofs.SiblingOrder
import Mathlib.Data.List.Lex
import Mathlib.Data.List.Perm.Basic

namespace RepoAtlas.Overview

variable {degrees : String → Option Int} {above : List String} {entries : List DirectoryNode}

/-! ### What a drawing shows -/

/-- Whether a sibling is drawn after a node. -/
def IsFollowed (siblings : List DirectoryNode) (node : DirectoryNode) : Prop :=
  ∃ other ∈ siblings, StandsBefore node other

instance (siblings : List DirectoryNode) (node : DirectoryNode) :
    Decidable (IsFollowed siblings node) :=
  inferInstanceAs (Decidable (∃ other ∈ siblings, StandsBefore node other))

/-- What is written behind the name of a node: the number of its importers from three on. -/
def importersMark : Option Int → String
  | some count => if 3 ≤ count then " [HUB: " ++ toString count ++ "←]" else ""
  | none => ""

/-- The line of the node that a chain leads down to: a column for each node above it, the branch to
the node itself, its name, and its mark. -/
def lineAlong : (siblings chain : List DirectoryNode) → String
  | _, [] => ""
  | siblings, [node] =>
    (if IsFollowed siblings node then "├── " else "└── ") ++ node.name ++
      importersMark node.hubCount
  | siblings, node :: next :: below =>
    (if IsFollowed siblings node then "│   " else "    ") ++ lineAlong node.children (next :: below)

/-- Whether chains of nodes lead down to the nodes of some trees, each once, in pre-order: a node
before those below it, and all below a node before what is below a sibling drawn after it. -/
structure IsPreorder (entries : List DirectoryNode) (chains : List (List DirectoryNode)) :
    Prop where
  mem_iff : ∀ chain, chain ∈ chains ↔ chain ≠ [] ∧ LeadDown entries chain
  ordered : chains.Pairwise (List.Lex StandsBefore)
  ends_perm : (chains.filterMap List.getLast?).Perm (nodesOf entries)

/-! ### Pre-order -/

/-- The chains that lead down from a directory, in the order in which their ends are drawn. -/
def chainsBelow (entries : List DirectoryNode) : List (List DirectoryNode) :=
  (entries.mergeSort drawnBefore).attach.flatMap (fun child =>
    [child.1] :: (chainsBelow child.1.children).map (child.1 :: ·))
termination_by sizeOf entries
decreasing_by
  obtain ⟨⟨name, path, hubCount, children⟩, member⟩ := child
  have smaller := List.sizeOf_lt_of_mem (List.mem_mergeSort.1 member)
  simp only [DirectoryNode.children]
  simp only [DirectoryNode.node.sizeOf_spec] at smaller
  omega

/-- The chains that lead down through an entry. -/
def chainsThrough (child : DirectoryNode) : List (List DirectoryNode) :=
  [child] :: (chainsBelow child.children).map (child :: ·)

theorem chainsBelow_eq (entries : List DirectoryNode) :
    chainsBelow entries = (entries.mergeSort drawnBefore).flatMap chainsThrough := by
  rw [chainsBelow]
  conv_rhs => rw [← List.attach_map_subtype_val (entries.mergeSort drawnBefore), List.flatMap_map]
  rfl

theorem mem_chainsBelow_iff (chain : List DirectoryNode) :
    chain ∈ chainsBelow entries ↔ chain ≠ [] ∧ LeadDown entries chain := by
  induction chain generalizing entries with
  | nil => simp [chainsBelow_eq entries, chainsThrough]
  | cons node below ih =>
    have through (child : DirectoryNode) : node :: below ∈ chainsThrough child ↔
        child = node ∧ LeadDown node.children below := by
      rw [chainsThrough, List.mem_cons, List.mem_map, List.cons.injEq]
      constructor
      · rintro (⟨rfl, rfl⟩ | ⟨tail, listed, same⟩)
        · exact ⟨rfl, trivial⟩
        · obtain ⟨rfl, rfl⟩ := List.cons.inj same
          exact ⟨rfl, (ih.1 listed).2⟩
      · rintro ⟨rfl, lead⟩
        by_cases ends : below = []
        · exact .inl ⟨rfl, ends⟩
        · exact .inr ⟨below, ih.2 ⟨ends, lead⟩, rfl⟩
    rw [chainsBelow_eq, List.mem_flatMap]
    simp only [through, List.mem_mergeSort]
    constructor
    · rintro ⟨child, member, rfl, lead⟩
      exact ⟨List.cons_ne_nil _ _, member, lead⟩
    · rintro ⟨_, member, lead⟩
      exact ⟨node, member, rfl, lead⟩

theorem exists_of_mem_chainsThrough {child : DirectoryNode} {chain : List DirectoryNode}
    (member : chain ∈ chainsThrough child) : ∃ below, chain = child :: below := by
  rcases List.mem_cons.1 member with rfl | further
  · exact ⟨[], rfl⟩
  · obtain ⟨below, _, rfl⟩ := List.mem_map.1 further
    exact ⟨below, rfl⟩

/-- Chains that stand in the order of words through each entry do so below the directory: its
entries are sorted, and a chain begins with the entry that it goes through. -/
theorem pairwise_chainsBelow_of (siblings : AreSiblings degrees above entries)
    (through : ∀ child ∈ entries, (chainsThrough child).Pairwise (List.Lex StandsBefore)) :
    (chainsBelow entries).Pairwise (List.Lex StandsBefore) := by
  rw [chainsBelow_eq, List.pairwise_flatMap]
  constructor
  · intro child member
    exact through child (List.mem_mergeSort.1 member)
  · apply (pairwise_standsBefore siblings.distinct).imp
    intro first second before chain member chain' member'
    obtain ⟨below, rfl⟩ := exists_of_mem_chainsThrough member
    obtain ⟨below', rfl⟩ := exists_of_mem_chainsThrough member'
    exact .rel before

theorem pairwise_chainsThrough (child : DirectoryNode) (placed : child.IsPlaced degrees above) :
    (chainsThrough child).Pairwise (List.Lex StandsBefore) := by
  induction child using DirectoryNode.childrenRec generalizing above with
  | step child ih =>
    have siblings := placed.areSiblings
    have below := pairwise_chainsBelow_of siblings (fun entry member =>
      ih entry member (arePlaced_iff.1 siblings.placed entry member))
    rw [chainsThrough, List.pairwise_cons, List.pairwise_map]
    constructor
    · intro chain member
      obtain ⟨tail, listed, rfl⟩ := List.mem_map.1 member
      obtain ⟨next, further, rfl⟩ :=
        List.exists_cons_of_ne_nil ((mem_chainsBelow_iff tail).1 listed).1
      exact .cons .nil
    · exact below.imp .cons

/-- The chains of a directory stand in the order of words. -/
theorem pairwise_chainsBelow (siblings : AreSiblings degrees above entries) :
    (chainsBelow entries).Pairwise (List.Lex StandsBefore) :=
  pairwise_chainsBelow_of siblings (fun child member =>
    pairwise_chainsThrough child (arePlaced_iff.1 siblings.placed child member))

theorem nodesOf_eq (entries : List DirectoryNode) :
    nodesOf entries = entries.flatMap DirectoryNode.nodes := by
  induction entries with
  | nil => rfl
  | cons child rest ih => rw [nodesOf, ih, List.flatMap_cons]

theorem mem_nodesOf {child inner : DirectoryNode} (member : child ∈ entries)
    (within : inner ∈ child.nodes) : inner ∈ nodesOf entries := by
  rw [nodesOf_eq]
  exact List.mem_flatMap.2 ⟨child, member, within⟩

theorem nodes_eq (node : DirectoryNode) : node.nodes = node :: nodesOf node.children := by
  cases node
  rfl

theorem ends_chainsBelow_perm_of
    (through : ∀ child ∈ entries,
      ((chainsThrough child).filterMap List.getLast?).Perm child.nodes) :
    ((chainsBelow entries).filterMap List.getLast?).Perm (nodesOf entries) := by
  rw [chainsBelow_eq, List.filterMap_flatMap, nodesOf_eq]
  exact ((List.mergeSort_perm entries drawnBefore).flatMap_right _).trans
    (List.Perm.flatMap_left entries through)

theorem ends_chainsThrough_perm (child : DirectoryNode) :
    ((chainsThrough child).filterMap List.getLast?).Perm child.nodes := by
  induction child using DirectoryNode.childrenRec with
  | step child ih =>
    have ends : ((chainsBelow child.children).map (child :: ·)).filterMap List.getLast? =
        (chainsBelow child.children).filterMap List.getLast? := by
      rw [List.filterMap_map]
      apply List.filterMap_congr
      intro chain member
      obtain ⟨next, further, rfl⟩ :=
        List.exists_cons_of_ne_nil ((mem_chainsBelow_iff chain).1 member).1
      exact List.getLast?_cons_cons
    rw [nodes_eq, chainsThrough, List.filterMap_cons_some List.getLast?_singleton, ends]
    exact (ends_chainsBelow_perm_of ih).cons child

/-- The ends of the chains of a directory are the nodes below it, each once. -/
theorem ends_chainsBelow_perm (entries : List DirectoryNode) :
    ((chainsBelow entries).filterMap List.getLast?).Perm (nodesOf entries) :=
  ends_chainsBelow_perm_of (fun child _ => ends_chainsThrough_perm child)

theorem isPreorder_chainsBelow (siblings : AreSiblings degrees above entries) :
    IsPreorder entries (chainsBelow entries) where
  mem_iff := mem_chainsBelow_iff
  ordered := pairwise_chainsBelow siblings
  ends_perm := ends_chainsBelow_perm entries

/-- There is one pre-order. -/
theorem IsPreorder.unique {first second : List (List DirectoryNode)}
    (preorder : IsPreorder entries first) (preorder' : IsPreorder entries second) :
    first = second := by
  have once {chains : List (List DirectoryNode)} (preorder : IsPreorder entries chains) :
      chains.Nodup := by
    apply preorder.ordered.imp
    rintro chain _ before rfl
    exact asymm before before
  apply List.Perm.eq_of_pairwise _ preorder.ordered preorder'.ordered
  · rw [List.perm_ext_iff_of_nodup (once preorder) (once preorder')]
    intro chain
    rw [preorder.mem_iff, preorder'.mem_iff]
  · intro chain chain' _ _ before after
    exact absurd after (asymm before)

/-! ### Lines -/

/-- Texts of several lines each are joined as their lines are. -/
theorem intercalate_map_intercalate (separator : String) (parts : List (List String))
    (filled : ∀ part ∈ parts, part ≠ []) :
    separator.intercalate (parts.map separator.intercalate) =
      separator.intercalate parts.flatten := by
  induction parts with
  | nil => rfl
  | cons part rest ih =>
    obtain ⟨some, others⟩ := List.forall_mem_cons.1 filled
    cases rest with
    | nil => simp
    | cons next further =>
      have flat : (next :: further).flatten ≠ [] := by
        obtain ⟨nonempty, _⟩ := List.forall_mem_cons.1 others
        simp [nonempty]
      rw [List.map_cons, String.intercalate_cons_of_ne_nil (by simp), ih others,
        ← String.intercalate_append_of_ne_nil some flat, ← List.flatten_cons]

theorem hubMark_eq (node : DirectoryNode) : hubMark node = importersMark node.hubCount := by
  obtain ⟨name, path, hubCount, children⟩ := node
  cases hubCount with
  | none => rfl
  | some count =>
    have enough : (DirectoryNode.node name path (some count) children).isHub = true ↔ 3 ≤ count :=
      decide_eq_true_iff
    simp only [hubMark, importersMark, DirectoryNode.hubCount, enough]

theorem drawNode_eq {node : DirectoryNode} (named : node.name ≠ ".") (lead : String)
    (isLast : Bool) :
    drawNode lead isLast node = String.intercalate "\n"
      ((lead ++ (if isLast then "└── " else "├── ") ++ node.name ++ importersMark node.hubCount) ::
        drawAll (lead ++ if isLast then "    " else "│   ") node.children) := by
  obtain ⟨name, path, hubCount, children⟩ := node
  have named : name ≠ "." := named
  simp only [drawNode, if_neg named, hubMark_eq]
  rfl

theorem isFollowed_cons_iff (first : DirectoryNode) (rest : List DirectoryNode)
    (node : DirectoryNode) :
    IsFollowed (first :: rest) node ↔ StandsBefore node first ∨ IsFollowed rest node := by
  simp only [IsFollowed, List.mem_cons, or_and_right, exists_or, exists_eq_left]

/-- Of siblings in order, the last is the one that is not followed. -/
theorem drawAll_eq_map (lead : String) {siblings : List DirectoryNode}
    (ordered : siblings.Pairwise StandsBefore) :
    drawAll lead (siblings.map sorted) = siblings.map (fun child =>
      drawNode lead (!decide (IsFollowed siblings child)) (sorted child)) := by
  induction siblings with
  | nil => rfl
  | cons first rest ih =>
    obtain ⟨before, others⟩ := List.pairwise_cons.1 ordered
    have last : (rest.map sorted).isEmpty = !decide (IsFollowed (first :: rest) first) := by
      cases rest with
      | nil =>
        have alone : ¬ IsFollowed [first] first := by
          rw [isFollowed_cons_iff]
          rintro (itself | ⟨_, none, _⟩)
          · exact itself.asymm itself
          · cases none
        simp [alone]
      | cons next further =>
        have followed : IsFollowed (first :: next :: further) first :=
          ⟨next, by simp, before next List.mem_cons_self⟩
        simp [followed]
    rw [List.map_cons, drawAll, ih others, List.map_cons, last]
    congr 1
    apply List.map_congr_left
    intro other member
    have later : IsFollowed (first :: rest) other ↔ IsFollowed rest other := by
      rw [isFollowed_cons_iff, or_iff_right (before other member).asymm]
    simp only [later]

theorem isFollowed_mergeSort (node : DirectoryNode) :
    IsFollowed (entries.mergeSort drawnBefore) node ↔ IsFollowed entries node := by
  simp only [IsFollowed, List.mem_mergeSort]

theorem lineAlong_cons {chain : List DirectoryNode} (further : chain ≠ [])
    (siblings : List DirectoryNode) (node : DirectoryNode) :
    lineAlong siblings (node :: chain) =
      (if IsFollowed siblings node then "│   " else "    ") ++ lineAlong node.children chain := by
  obtain ⟨next, below, rfl⟩ := List.exists_cons_of_ne_nil further
  rw [lineAlong]

/-- The line of a node, and the lines below it one column further in. -/
theorem lines_chainsThrough (siblings : List DirectoryNode) (node : DirectoryNode) (lead : String) :
    (chainsThrough node).map (lead ++ lineAlong siblings ·) =
      (lead ++ lineAlong siblings [node]) :: (chainsBelow node.children).map
        (lead ++ (if IsFollowed siblings node then "│   " else "    ") ++
          lineAlong node.children ·) := by
  rw [chainsThrough, List.map_cons, List.map_map]
  congr 1
  apply List.map_congr_left
  intro chain member
  rw [Function.comp_apply, lineAlong_cons ((mem_chainsBelow_iff chain).1 member).1,
    String.append_assoc]

/-- The lines of the chains through each entry of a directory, in the order of drawing. -/
def lineGroups (entries : List DirectoryNode) (lead : String) : List (List String) :=
  (entries.mergeSort drawnBefore).map (fun child =>
    (chainsThrough child).map (lead ++ lineAlong entries ·))

theorem flatten_lineGroups (entries : List DirectoryNode) (lead : String) :
    (lineGroups entries lead).flatten =
      (chainsBelow entries).map (lead ++ lineAlong entries ·) := by
  rw [lineGroups, chainsBelow_eq, List.map_flatMap, List.flatMap_def]

theorem lineGroups_ne_nil (entries : List DirectoryNode) (lead : String) :
    ∀ lines ∈ lineGroups entries lead, lines ≠ [] := by
  intro lines member
  obtain ⟨child, _, rfl⟩ := List.mem_map.1 member
  exact List.cons_ne_nil _ _

/-- A directory is drawn as the lines of its chains if each of its entries is. -/
theorem drawAll_eq_lineGroups (siblings : AreSiblings degrees above entries) (lead : String)
    (through : ∀ child ∈ entries,
      drawNode lead (!decide (IsFollowed entries child)) (sorted child) =
        String.intercalate "\n" ((chainsThrough child).map (lead ++ lineAlong entries ·))) :
    drawAll lead ((entries.mergeSort drawnBefore).map sorted) =
      (lineGroups entries lead).map (String.intercalate "\n") := by
  rw [drawAll_eq_map lead (pairwise_standsBefore siblings.distinct), lineGroups, List.map_map]
  apply List.map_congr_left
  intro child member
  simp only [isFollowed_mergeSort]
  exact through child (List.mem_mergeSort.1 member)

/-- A node and what is below it are drawn as the lines of the chains that lead down through it. -/
theorem drawNode_sorted_eq (node : DirectoryNode) (placed : node.IsPlaced degrees above)
    (named : ∀ inner ∈ node.nodes, inner.name ≠ ".") (siblings : List DirectoryNode)
    (lead : String) :
    drawNode lead (!decide (IsFollowed siblings node)) (sorted node) =
      String.intercalate "\n" ((chainsThrough node).map (lead ++ lineAlong siblings ·)) := by
  induction node using DirectoryNode.childrenRec generalizing above siblings lead with
  | step node ih =>
    have entries := placed.areSiblings
    rw [nodes_eq, List.forall_mem_cons] at named
    let inner := lead ++ (if IsFollowed siblings node then "│   " else "    ")
    have below : drawAll inner (sorted node).children =
        (lineGroups node.children inner).map (String.intercalate "\n") := by
      rw [children_sorted]
      apply drawAll_eq_lineGroups entries
      intro child member
      apply ih child member (arePlaced_iff.1 entries.placed child member)
      exact fun deeper within => named.2 deeper (mem_nodesOf member within)
    have column : (lead ++ if (!decide (IsFollowed siblings node)) = true then "    " else "│   ") =
        inner := by
      by_cases followed : IsFollowed siblings node <;> simp [inner, followed]
    have own : lead ++ (if (!decide (IsFollowed siblings node)) = true then "└── " else "├── ") ++
        (sorted node).name ++ importersMark (sorted node).hubCount =
          lead ++ lineAlong siblings [node] := by
      rw [name_sorted, hubCount_sorted, lineAlong]
      by_cases followed : IsFollowed siblings node <;> simp [followed, String.append_assoc]
    have groups := intercalate_map_intercalate "\n"
      ([lead ++ lineAlong siblings [node]] :: lineGroups node.children inner)
      (List.forall_mem_cons.2 ⟨List.cons_ne_nil _ _, lineGroups_ne_nil _ _⟩)
    rw [List.map_cons, String.intercalate_singleton, List.flatten_cons, flatten_lineGroups,
      List.singleton_append] at groups
    rw [drawNode_eq (by rw [name_sorted]; exact named.1), column, own, below, groups,
      lines_chainsThrough]

/-! ### The drawing of some paths -/

/-- Nodes that lead down from a directory give a route there by their names. -/
theorem mem_routesOf_of_leadDown {chain : List DirectoryNode} (some_node : chain ≠ [])
    (lead : LeadDown entries chain) :
    above ++ chain.map DirectoryNode.name ∈ routesOf above entries := by
  induction chain generalizing above entries with
  | nil => exact absurd rfl some_node
  | cons node below ih =>
    obtain ⟨member, further⟩ := lead
    rw [mem_routesOf_iff]
    refine ⟨node, member, ?_⟩
    rw [routes_eq]
    cases below with
    | nil => exact List.mem_cons_self
    | cons next below =>
      have deeper : (above ++ [node.name]) ++ (next :: below).map DirectoryNode.name ∈
          routesOf (above ++ [node.name]) node.children :=
        ih (List.cons_ne_nil _ _) further
      rw [List.append_assoc, List.singleton_append, ← List.map_cons] at deeper
      exact List.mem_cons_of_mem _ deeper

/-- The names in the tree of some paths are segments of the paths. -/
theorem mem_segments_of_mem_nodesOf {paths : List String} {node : DirectoryNode}
    (member : node ∈ nodesOf (treeOf paths degrees).children) :
    ∃ path ∈ paths, node.name ∈ segments path := by
  rw [← (ends_chainsBelow_perm _).mem_iff, List.mem_filterMap] at member
  obtain ⟨chain, listed, ends⟩ := member
  obtain ⟨some_node, lead⟩ := (mem_chainsBelow_iff chain).1 listed
  have route : [] ++ chain.map DirectoryNode.name ∈ routesOf [] (treeOf paths degrees).children :=
    mem_routesOf_of_leadDown some_node lead
  obtain ⟨path, given, _, begins⟩ := (mem_routesOf_treeOf paths degrees _).1 route
  have last : node.name ∈ chain.map DirectoryNode.name :=
    List.mem_map_of_mem (List.mem_of_getLast? ends)
  exact ⟨path, given, begins.subset last⟩

/-- The drawing of some paths, none of which has a segment `.`, has one line for each node below the
root, in pre-order. -/
theorem draw_writes_lines {paths : List String} (proper : ∀ path ∈ paths, "." ∉ segments path)
    (degrees : String → Option Int) :
    let tree := treeOf paths degrees
    ∃ chains, IsPreorder tree.children chains ∧
      (∀ others, IsPreorder tree.children others → others = chains) ∧
      draw tree = String.intercalate "\n" (chains.map (lineAlong tree.children)) := by
  intro tree
  have siblings := areSiblings_treeOf paths degrees
  have preorder := isPreorder_chainsBelow siblings
  refine ⟨chainsBelow tree.children, preorder, fun _ other => other.unique preorder, ?_⟩
  have below := drawAll_eq_lineGroups siblings "" (by
    intro child member
    apply drawNode_sorted_eq child (arePlaced_iff.1 siblings.placed child member)
    intro inner within dot
    obtain ⟨path, given, listed⟩ := mem_segments_of_mem_nodesOf (mem_nodesOf member within)
    exact proper path given (dot ▸ listed))
  have root : draw tree = String.intercalate "\n" (drawAll "" (sorted tree).children) :=
    rfl
  rw [root, children_sorted, below, intercalate_map_intercalate _ _ (lineGroups_ne_nil _ _),
    flatten_lineGroups]
  simp only [String.empty_append]
  rfl

/-- The files of a small site, one of them a hub. -/
def siteFiles : List String := ["src/core/a.ts", "src/core/b.ts", "README.md"]

/-- The number of importers of the hub. -/
def siteDegrees (path : String) : Option Int :=
  if path = "src/core/a.ts" then some 3 else none

/-- The site is drawn on the lines of the chains that lead down to its nodes. -/
theorem draw_writes_lines_siteFiles :
    (∀ path ∈ siteFiles, "." ∉ segments path) ∧
      ∃ chains, IsPreorder (treeOf siteFiles siteDegrees).children chains ∧
        draw (treeOf siteFiles siteDegrees) = String.intercalate "\n"
          (chains.map (lineAlong (treeOf siteFiles siteDegrees).children)) := by
  have proper : ∀ path ∈ siteFiles, "." ∉ segments path := by decide
  obtain ⟨chains, preorder, _, drawn⟩ := draw_writes_lines proper siteDegrees
  exact ⟨proper, chains, preorder, drawn⟩

example : draw (treeOf ["README.md", "src/core/b.ts", "src/core/a.ts"]
      (fun path => if path = "src/core/a.ts" then some 3 else none)) =
    "├── src\n│   └── core\n│       ├── a.ts [HUB: 3←]\n│       └── b.ts\n└── README.md" := by
  cbv

end RepoAtlas.Overview
